import RtmpRelay.Connection.Endpoint
import RtmpRelay.Relay.Basic

/-!
The life of one connection on the relay: handshake, negotiation, then publishing or playing. It advances in
steps that each take one message or one queued packet at most. Whatever ends it also gives back its part in
the relay.
-/

namespace RtmpRelay

/-- What a connection is doing. A player that has seen the start of a message takes all of it before it
looks at its queue again. -/
inductive Role where
  | negotiating
  | publisher (claim : Publisher)
  | player (subscriber : Subscriber) (isReading : Bool)
  | finished (result : Except Error Unit)

structure Session where
  endpoint : Endpoint
  role : Role

/-- Whether a step changed the state of the session or has to wait for bytes or packets. -/
inductive Progress where
  | moved
  | waiting
deriving DecidableEq

/-- Which of its two sources a player looks at first. -/
inductive Source where
  | queue
  | inbound
deriving DecidableEq

namespace Session

abbrev Step := Session × Relay × Progress

def new (settings : ConnectionSettings) : Session :=
  ⟨.new settings, .negotiating⟩

/-- Gives back what a role holds of the relay. -/
def release (relay : Relay) : Role → Relay
  | .publisher claim => relay.dropPublisher claim
  | .player subscriber _ => relay.dropSubscriber subscriber
  | .negotiating | .finished _ => relay

def finish (session : Session) (relay : Relay) (result : Except Error Unit) : Step :=
  ({ session with role := .finished result }, release relay session.role, .moved)

/-- Runs an action. Its failure ends the session, and its result decides how the session goes on. -/
def perform (session : Session) (relay : Relay) (action : Action α) (next : Session → α → Step) : Step :=
  match action session.endpoint with
  | .ok value endpoint => next { session with endpoint } value
  | .error .waiting endpoint => ({ session with endpoint }, relay, .waiting)
  | .error (.failed error) endpoint => finish { session with endpoint } relay (.error error)

def negotiate (random : Bytes) : Action Phase := do
  if let .handshaking _ := (← Endpoint.connection?).phase then Endpoint.handshake random
  Endpoint.readHeader
  return (← Endpoint.connection?).phase

def assignRole (session : Session) (relay : Relay) (phase : Phase) : Step :=
  let key := session.endpoint.connection.streamKey
  match phase with
  | .publishing =>
    match relay.publish key with
    | .ok (relay, claim) => ({ session with role := .publisher claim }, relay, .moved)
    | .error error => finish session relay (.error error)
  | .playing =>
    let (relay, subscriber) := relay.subscribe key
    ({ session with role := .player subscriber false }, relay, .moved)
  | _ => finish session relay (.ok ())

def publishStep (session : Session) (relay : Relay) (claim : Publisher) : Step :=
  if session.endpoint.connection.phase = .closed then finish session relay (.ok ())
  else
    perform session relay Endpoint.readMedia fun session packet =>
      match packet with
      | some packet => (session, relay.send claim packet, .moved)
      | none => (session, relay, .moved)

/-- Takes a packet from the queue and writes it. Once the publisher has left and the queue is drained, the
end of the stream is written and playing is over. -/
def playQueued (session : Session) (relay : Relay) (subscriber : Subscriber) : Step :=
  match relay.receive subscriber with
  | (relay, .packet packet) =>
    perform session relay (Endpoint.writePacket packet) fun session _ => (session, relay, .moved)
  | (relay, .empty) => (session, relay, .waiting)
  | (relay, .closed) =>
    perform session relay (Endpoint.send (.streamEnd mediaMessageStream)) fun session _ =>
      finish session relay (.ok ())

/-- Looks for bytes from the player, whose going away is no failure between two messages. -/
def playInbound (session : Session) (relay : Relay) (subscriber : Subscriber) : Step :=
  perform session relay Endpoint.waitInbound fun session hasMore =>
    if hasMore then ({ session with role := .player subscriber true }, relay, .moved)
    else finish session relay (.ok ())

/-- Takes the message that a player has begun. -/
def playMessage (session : Session) (relay : Relay) (subscriber : Subscriber) : Step :=
  let action : Action Phase := do
    Endpoint.handle (← Endpoint.readMessage)
    return (← Endpoint.connection?).phase
  perform session relay action fun session phase =>
    if phase = .closed then finish session relay (.ok ())
    else ({ session with role := .player subscriber false }, relay, .moved)

/-- Takes the next step if a step has to wait. -/
def otherwise (reached : Step) (next : Session → Relay → Step) : Step :=
  match reached with
  | (session, relay, .waiting) => next session relay
  | moved => moved

def playStep (session : Session) (relay : Relay) (subscriber : Subscriber) (first : Source) : Step :=
  match first with
  | .queue => otherwise (playQueued session relay subscriber) (playInbound · · subscriber)
  | .inbound => otherwise (playInbound session relay subscriber) (playQueued · · subscriber)

/-- One step. The random bytes are the server's part of the handshake. -/
def step (random : Bytes) (first : Source) (session : Session) (relay : Relay) : Step :=
  match session.role with
  | .finished _ => (session, relay, .waiting)
  | .negotiating =>
    perform session relay (negotiate random) fun session phase => assignRole session relay phase
  | .publisher claim => publishStep session relay claim
  | .player subscriber true => playMessage session relay subscriber
  | .player subscriber false => playStep session relay subscriber first

/-- Goes on from a step as long as the session moves, at most so many times. -/
def advance (random : Bytes) : Nat → Step → Step
  | 0, reached => reached
  | rounds + 1, (session, relay, progress) =>
    match session.step random .queue relay with
    | (session, relay, .waiting) => (session, relay, progress)
    | moved => advance random rounds moved

def queued (session : Session) (relay : Relay) : Nat :=
  match session.role with
  | .player subscriber _ => (relay.queue subscriber.id).size
  | _ => 0

/-- So many steps at most: one takes a byte or a packet, or is one of two for each message, or one of the few at
either end. -/
def limit (session : Session) (relay : Relay) : Nat :=
  2 * session.endpoint.inbound.length + session.queued relay + 6

/-- Steps until the session has to wait or is finished. -/
def run (random : Bytes) (session : Session) (relay : Relay) : Step :=
  advance random (session.limit relay) (session, relay, .waiting)

end Session
end RtmpRelay
