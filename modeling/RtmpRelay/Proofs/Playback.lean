import RtmpRelay.Proofs.Delivery
import RtmpRelay.Proofs.Outgoing
import RtmpRelay.Proofs.Surfacing

/-! What a player's client gets. A player serves two sources, the packets in its queue and the messages of its client, and
whichever it turns to, nothing of either is lost, taken twice or put out of order: what goes out are whole messages, the
packets in the order of the queue and the answers in the order of the messages. The end of the stream is announced once,
behind all else, and only if the publisher has left and the queue is drained. -/

namespace RtmpRelay

/-- Two lists in one, each in its own order. -/
inductive Interleaves {α : Type} : List α → List α → List α → Prop where
  | nil : Interleaves [] [] []
  | first {one other whole : List α} (before : Interleaves one other whole) (item : α) :
      Interleaves (one ++ [item]) other (whole ++ [item])
  | second {one other whole : List α} (before : Interleaves one other whole) (item : α) :
      Interleaves one (other ++ [item]) (whole ++ [item])

namespace Interleaves
variable {α : Type} {one other whole : List α}

theorem append (before : Interleaves one other whole) (items : List α) :
    Interleaves one (other ++ items) (whole ++ items) := by
  induction items generalizing other whole with
  | nil => simpa only [List.append_nil] using before
  | cons item items ih =>
    have further := ih (before.second item)
    rwa [List.append_assoc, List.append_assoc, List.singleton_append] at further

theorem mem (interleaves : Interleaves one other whole) {item : α} (member : item ∈ whole) :
    item ∈ one ∨ item ∈ other := by
  induction interleaves with
  | nil => cases member
  | first _ last ih =>
    rcases List.mem_append.mp member with earlier | same
    · exact (ih earlier).imp_left (List.mem_append_left _)
    · exact .inl (List.mem_append_right _ same)
  | second _ last ih =>
    rcases List.mem_append.mp member with earlier | same
    · exact (ih earlier).imp_right (List.mem_append_left _)
    · exact .inr (List.mem_append_right _ same)

end Interleaves

def Relay.Delivery.isEmpty : Delivery → Bool
  | .empty => true
  | .packet _ | .closed => false

def Relay.Delivery.isClosed : Delivery → Bool
  | .closed => true
  | .packet _ | .empty => false

namespace Relay
variable {relay after : Relay} {subscriber : Subscriber}

theorem receive_empty (empty : (relay.receive subscriber).2.isEmpty = true) :
    relay.receive subscriber = (relay, .empty) := by
  unfold receive at empty ⊢
  split at empty
  · cases empty
  next =>
    dsimp only at empty
    split at empty
    next joined => rw [if_pos joined]
    next => cases empty

theorem receive_closed (taken : relay.receive subscriber = (after, .closed)) :
    after = relay ∧ (relay.queue subscriber.id).toList = [] := by
  unfold receive at taken
  split at taken
  · cases taken
  next popped =>
    split at taken
    · cases taken
    · cases taken
      exact ⟨rfl, Queue.pop?_eq_none_iff.mp popped⟩

end Relay

def Source.other : Source → Source
  | .queue => .inbound
  | .inbound => .queue

/-- The queue of a player, and whether it is taking a message. -/
def Role.place? : Role → Option (Subscriber × Bool)
  | .player subscriber isReading => some (subscriber, isReading)
  | .negotiating | .publisher _ | .finished _ => none

theorem Role.of_place? {role : Role} {subscriber : Subscriber} {isReading : Bool}
    (place : role.place? = some (subscriber, isReading)) : role = .player subscriber isReading := by
  cases role with
  | player =>
    cases place
    rfl
  | negotiating | publisher | finished => cases place

namespace Session
open Message (Wire)
open Connection (Exchange)
open Endpoint (Converses bind_ok bind_error)

/-- Whether a player finds something there, be it the end. -/
def isReady (session : Session) (relay : Relay) (subscriber : Subscriber) : Source → Bool
  | .queue => !(relay.receive subscriber).2.isEmpty
  | .inbound => !session.endpoint.inbound.isEmpty || session.endpoint.ended

/-- The source that a player turns to. It prefers one, but does not wait there as long as it finds something at the other. -/
def turnsTo (session : Session) (relay : Relay) (subscriber : Subscriber) (first : Source) : Option Source :=
  if session.isReady relay subscriber first then some first
  else if session.isReady relay subscriber first.other then some first.other
  else none

def playFrom (session : Session) (relay : Relay) (subscriber : Subscriber) : Source → Step
  | .queue => session.playQueued relay subscriber
  | .inbound => session.playInbound relay subscriber

/-- Whether a player is to find that its publisher has left and its queue is drained. -/
def drains (session : Session) (relay : Relay) (first : Source) : Bool :=
  match session.role with
  | .player subscriber false =>
    session.turnsTo relay subscriber first = some .queue && (relay.receive subscriber).2.isClosed
  | _ => false

section Turning
variable {session : Session} {relay after : Relay} {subscriber : Subscriber}

theorem playQueued_packet {packet : Packet} {bytes : Bytes} (taken : relay.receive subscriber = (after, .packet packet))
    (written : packet.toMessage.toBytes session.endpoint.connection.outChunkSize = .ok bytes) :
    session.playQueued relay subscriber =
      ({ session with endpoint := { session.endpoint with outbound := session.endpoint.outbound ++ bytes } }, after,
        .moved) := by
  have ran : Endpoint.writePacket packet session.endpoint = _ := Endpoint.send_ok written
  rw [Connection.sent_other _ packet.toMessage_typeId.1] at ran
  rw [playQueued, taken]
  dsimp only
  rw [perform, ran]

theorem playQueued_unwritable {packet : Packet} {error : Error}
    (taken : relay.receive subscriber = (after, .packet packet))
    (refused : packet.toMessage.toBytes session.endpoint.connection.outChunkSize = .error error) :
    session.playQueued relay subscriber = session.finish after (.error error) := by
  have ran : Endpoint.writePacket packet session.endpoint = _ := Endpoint.send_error refused
  rw [playQueued, taken]
  dsimp only
  rw [perform, ran]

/-- The end of the stream can always be written, and is no news for the connection. -/
theorem playQueued_closed (session : Session) (taken : relay.receive subscriber = (after, .closed)) :
    ∃ bytes : Bytes,
      (⟨2, 0, 4, 0, [0, 1, 0, 0, 0, 1]⟩ : Message).toBytes session.endpoint.connection.outChunkSize = .ok bytes ∧
      session.playQueued relay subscriber = finish { session with endpoint := { session.endpoint with
        outbound := session.endpoint.outbound ++ bytes } } after (.ok ()) := by
  have fits : (Message.streamEnd mediaMessageStream).Fits := Message.control_fits .userControl (by decide)
  obtain ⟨bytes, written⟩ := Message.toBytes_ok fits session.endpoint.connection.outChunkSize
  have ran := Endpoint.send_ok written
  rw [Connection.sent_other _ (show (4 : UInt8) ≠ 1 by decide)] at ran
  refine ⟨bytes, written, ?_⟩
  rw [playQueued, taken]
  dsimp only
  rw [perform, ran]

theorem playInbound_eq :
    session.playInbound relay subscriber =
      if session.endpoint.inbound.isEmpty then
        if session.endpoint.ended then session.finish relay (.ok ()) else (session, relay, .waiting)
      else ({ session with role := .player subscriber true }, relay, .moved) := by
  have looked := Endpoint.waitInbound_eq session.endpoint
  rw [playInbound, perform]
  cases nothing : session.endpoint.inbound.isEmpty with
  | false =>
    rw [looked, nothing]
    rfl
  | true => cases ended : session.endpoint.ended <;> rw [looked, nothing, ended] <;> rfl

section Message
variable {message : Message} {middle next : Endpoint}

theorem playMessage_handled (taken : Endpoint.readMessage session.endpoint = .ok message middle)
    (handled : Endpoint.handle message middle = .ok () next) :
    session.playMessage relay subscriber =
      if next.connection.phase = .closed then finish { session with endpoint := next } relay (.ok ())
      else ({ session with endpoint := next, role := .player subscriber false }, relay, .moved) := by
  rw [playMessage, perform, bind_ok taken, bind_ok handled]
  rfl

theorem playMessage_refused {error : Error} (taken : Endpoint.readMessage session.endpoint = .ok message middle)
    (refused : Endpoint.handle message middle = .error (.failed error) next) :
    session.playMessage relay subscriber = finish { session with endpoint := next } relay (.error error) := by
  rw [playMessage, perform, bind_ok taken, bind_error refused]

theorem playMessage_starved (stopped : Endpoint.readMessage session.endpoint = .error next.starvation next) :
    session.playMessage relay subscriber =
      if next.ended then finish { session with endpoint := next } relay (.error (.transport .unexpectedEnd))
      else ({ session with endpoint := next }, relay, .waiting) := by
  rw [playMessage, perform, bind_error stopped, Endpoint.starvation]
  cases next.ended <;> rfl

end Message

theorem playFrom_idle {source : Source} (idle : session.isReady relay subscriber source = false) :
    session.playFrom relay subscriber source = (session, relay, .waiting) := by
  cases source with
  | queue =>
    have empty : (relay.receive subscriber).2.isEmpty = true := by simpa only [isReady, Bool.not_eq_false'] using idle
    rw [playFrom, playQueued, Relay.receive_empty empty]
  | inbound =>
    have nothing : session.endpoint.inbound.isEmpty = true ∧ session.endpoint.ended = false := by
      simpa only [isReady, Bool.or_eq_false_iff, Bool.not_eq_false'] using idle
    rw [playFrom, playInbound_eq, if_pos nothing.1, nothing.2]
    rfl

theorem playFrom_moves {source : Source} (ready : session.isReady relay subscriber source = true) :
    (session.playFrom relay subscriber source).2.2 = .moved := by
  cases source with
  | queue =>
    obtain ⟨after, delivery, found⟩ : ∃ after delivery, relay.receive subscriber = (after, delivery) := ⟨_, _, rfl⟩
    cases delivery with
    | packet packet =>
      cases written : packet.toMessage.toBytes session.endpoint.connection.outChunkSize with
      | ok bytes => rw [playFrom, playQueued_packet found written]
      | error error =>
        rw [playFrom, playQueued_unwritable found written]
        rfl
    | empty =>
      rw [isReady, found] at ready
      cases ready
    | closed =>
      obtain ⟨bytes, _, ran⟩ := playQueued_closed session found
      rw [playFrom, ran]
      rfl
  | inbound =>
    rw [playFrom, playInbound_eq]
    split
    next nothing =>
      have ended : session.endpoint.ended = true := by
        simpa only [isReady, nothing, Bool.not_true, Bool.false_or] using ready
      rw [if_pos ended]
      rfl
    next => rfl

theorem otherwise_eq {reached : Step} {next : Session → Relay → Step} (moved : reached.2.2 = .moved) :
    otherwise reached next = reached := by
  obtain ⟨session, relay, progress⟩ := reached
  cases moved
  rfl

/-- A player does what it turns to, and waits only if it finds nothing at either source. -/
theorem playStep_eq (session : Session) (relay : Relay) (subscriber : Subscriber) (first : Source) :
    session.playStep relay subscriber first =
      (session.turnsTo relay subscriber first).elim (session, relay, .waiting) (session.playFrom relay subscriber) := by
  have unfolded : session.playStep relay subscriber first =
      otherwise (session.playFrom relay subscriber first) fun session relay =>
        session.playFrom relay subscriber first.other := by
    cases first <;> rfl
  rw [unfolded, turnsTo]
  split
  next ready => exact otherwise_eq (playFrom_moves ready)
  next idle =>
    rw [playFrom_idle (Bool.eq_false_iff.mpr idle)]
    split
    next => rfl
    next neither => exact playFrom_idle (Bool.eq_false_iff.mpr neither)

end Turning

/-- What has gone through a player: the bytes that were taken, the messages that they completed and the answers to them,
with the message that is not answered and the answers to it that went out nevertheless; the packets of the queue that were
written and those that were not; and all that was written. -/
structure Account where
  read : Bytes
  heard : List Message
  answers : List Message
  pending : Option Message
  incomplete : List Message
  connection : Connection
  packets : List Packet
  unsent : List Packet
  written : List Message

namespace Account

/-- Nothing of what came in or was queued is missing, and what went out are whole messages: those of the packets and the
answers, and behind them the last ones. -/
structure Balances (account : Account) (start : Endpoint) (fed : Bytes) (queued : List Packet) (last : List Message)
    (endpoint : Endpoint) : Prop where
  inbound : start.inbound ++ fed = account.read ++ endpoint.inbound
  exchange : Exchange start.connection account.read account.heard account.answers account.pending account.connection
  queue : queued = account.packets ++ account.unsent
  order : Interleaves (account.packets.map Packet.toMessage) (account.answers ++ account.incomplete) account.written
  outbound : ∃ bytes : Bytes, endpoint.outbound = start.outbound ++ bytes ∧
    Wire start.connection.outChunkSize (account.written ++ last) bytes endpoint.connection.outChunkSize

/-- Every message that was taken has been answered. -/
structure Settled (account : Account) (connection : Connection) : Prop where
  pending : account.pending = none
  incomplete : account.incomplete = []
  connection : account.connection = connection

/-- The account once more has been said. -/
def converse (account : Account) (read : Bytes) (heard answers : List Message) (pending : Option Message)
    (connection : Connection) : Account :=
  { account with
    read := account.read ++ read, heard := account.heard ++ heard, answers := account.answers ++ answers
    pending := pending, connection := connection, written := account.written ++ answers }

def send (account : Account) (packet : Packet) (unsent : List Packet) : Account :=
  { account with
    packets := account.packets ++ [packet], unsent := unsent, written := account.written ++ [packet.toMessage] }

def breakOff (account : Account) (sent : List Message) : Account :=
  { account with incomplete := sent, written := account.written ++ sent }

namespace Balances
variable {account : Account} {start endpoint after : Endpoint} {fed : Bytes} {queued : List Packet}

theorem further {more : List Message} (balances : account.Balances start fed queued [] endpoint)
    (wrote : ∃ bytes : Bytes, after.outbound = endpoint.outbound ++ bytes ∧
      Wire endpoint.connection.outChunkSize more bytes after.connection.outChunkSize) :
    ∃ bytes : Bytes, after.outbound = start.outbound ++ bytes ∧
      Wire start.connection.outChunkSize (account.written ++ more) bytes after.connection.outChunkSize := by
  have before := balances.outbound
  rw [List.append_nil] at before
  exact Wire.further before wrote

theorem converse {read : Bytes} {heard answers : List Message} {pending : Option Message}
    (balances : account.Balances start fed queued [] endpoint) (settled : account.Settled endpoint.connection)
    (converses : Converses endpoint read heard answers pending after) :
    (account.converse read heard answers pending after.connection).Balances start fed queued [] after where
  inbound := by
    rw [balances.inbound, converses.inbound, ← List.append_assoc]
    rfl
  exchange := by
    have exchange := balances.exchange
    rw [settled.pending, settled.connection] at exchange
    exact exchange.trans converses.exchange
  queue := balances.queue
  order := by
    have order := balances.order
    rw [settled.incomplete, List.append_nil] at order
    show Interleaves _ (account.answers ++ answers ++ account.incomplete) _
    rw [settled.incomplete, List.append_nil]
    exact order.append answers
  outbound := by
    rw [List.append_nil]
    exact balances.further converses.outbound

theorem send {packet : Packet} {unsent : List Packet} {bytes : Bytes}
    (balances : account.Balances start fed queued [] endpoint) (front : account.unsent = packet :: unsent)
    (written : packet.toMessage.toBytes endpoint.connection.outChunkSize = .ok bytes) :
    (account.send packet unsent).Balances start fed queued []
      { endpoint with outbound := endpoint.outbound ++ bytes } where
  inbound := balances.inbound
  exchange := balances.exchange
  queue := by
    rw [balances.queue, front]
    exact (List.append_assoc account.packets [packet] unsent).symm
  order := by
    show Interleaves (List.map Packet.toMessage (account.packets ++ [packet])) _ _
    rw [List.map_append]
    exact balances.order.first packet.toMessage
  outbound := by
    have wire := Wire.single written
    rw [Message.sizeAfter_other packet.toMessage_typeId.1] at wire
    rw [List.append_nil]
    exact balances.further ⟨bytes, rfl, wire⟩

/-- A part of an answer to the message that is pending. -/
theorem breakOff {sent : List Message} {bytes : Bytes} (balances : account.Balances start fed queued [] endpoint)
    (incomplete : account.incomplete = []) (inbound : after.inbound = endpoint.inbound)
    (outbound : after.outbound = endpoint.outbound ++ bytes)
    (wire : Wire endpoint.connection.outChunkSize sent bytes after.connection.outChunkSize) :
    (account.breakOff sent).Balances start fed queued [] after where
  inbound := inbound ▸ balances.inbound
  exchange := balances.exchange
  queue := balances.queue
  order := by
    have order := balances.order
    rw [incomplete, List.append_nil] at order
    exact order.append sent
  outbound := by
    rw [List.append_nil]
    exact balances.further ⟨bytes, outbound, wire⟩

theorem drain {bytes : Bytes} (balances : account.Balances start fed queued [] endpoint)
    (written : (⟨2, 0, 4, 0, [0, 1, 0, 0, 0, 1]⟩ : Message).toBytes endpoint.connection.outChunkSize = .ok bytes) :
    account.Balances start fed queued [⟨2, 0, 4, 0, [0, 1, 0, 0, 0, 1]⟩]
      { endpoint with outbound := endpoint.outbound ++ bytes } where
  inbound := balances.inbound
  exchange := balances.exchange
  queue := balances.queue
  order := balances.order
  outbound := by
    have wire := Wire.single written
    rw [Message.sizeAfter_other (show (4 : UInt8) ≠ 1 by decide)] at wire
    exact balances.further ⟨bytes, rfl, wire⟩

end Balances
end Account

/-- What the end of playing adds. -/
def ending (drained : Bool) : List Message :=
  if drained then [⟨2, 0, 4, 0, [0, 1, 0, 0, 0, 1]⟩] else []

/-- What a player leaves behind in its queue when it goes. -/
def Leaves (subscriber : Subscriber) (unsent : List Packet) (relay : Relay) : Prop :=
  ∃ before : Relay, unsent = (before.queue subscriber.id).toList ∧ relay = before.dropSubscriber subscriber

/-- A player that is at it, or why it has ended: the queue was drained, the client hung up between two messages or in the
middle of one, it closed the stream, its message was refused, or a packet could not be written. Only such a packet has been
taken from the queue without being written. -/
inductive Stage (subscriber : Subscriber) (account : Account) (session : Session) (relay : Relay) : Bool → Prop where
  | playing {isReading : Bool} (role : session.role = .player subscriber isReading)
      (settled : account.Settled session.endpoint.connection) (isOpen : session.endpoint.connection.phase ≠ .closed)
      (queue : account.unsent = (relay.queue subscriber.id).toList) : Stage subscriber account session relay false
  | drained (role : session.role = .finished (.ok ())) (settled : account.Settled session.endpoint.connection)
      (left : Leaves subscriber account.unsent relay) (nothing : account.unsent = []) :
      Stage subscriber account session relay true
  | hungUp (role : session.role = .finished (.ok ())) (settled : account.Settled session.endpoint.connection)
      (left : Leaves subscriber account.unsent relay) (ended : session.endpoint.ended = true)
      (unread : session.endpoint.inbound = []) : Stage subscriber account session relay false
  | closed (role : session.role = .finished (.ok ())) (settled : account.Settled session.endpoint.connection)
      (left : Leaves subscriber account.unsent relay) (phase : session.endpoint.connection.phase = .closed) :
      Stage subscriber account session relay false
  | refused {message : Message} {middle : Endpoint} {error : Error} (role : session.role = .finished (.error error))
      (left : Leaves subscriber account.unsent relay) (pending : account.pending = some message)
      (connection : account.connection = middle.connection)
      (failed : Endpoint.handle message middle = .error (.failed error) session.endpoint)
      (begun : account.incomplete <+: middle.connection.replies message) : Stage subscriber account session relay false
  | truncated (role : session.role = .finished (.error (.transport .unexpectedEnd)))
      (settled : account.Settled session.endpoint.connection) (left : Leaves subscriber account.unsent relay)
      (ended : session.endpoint.ended = true)
      (missing : session.endpoint.connection.nextChunk session.endpoint.inbound = none) :
      Stage subscriber account session relay false
  | unwritable {packet : Packet} {unsent : List Packet} {error : Error} (role : session.role = .finished (.error error))
      (settled : account.Settled session.endpoint.connection) (front : account.unsent = packet :: unsent)
      (left : Leaves subscriber unsent relay)
      (failed : packet.toMessage.toBytes session.endpoint.connection.outChunkSize = .error error) :
      Stage subscriber account session relay false

/-- A player, step by step until it ends: the bytes that came in, the packets that were queued for it, and whether it has
found its queue drained. In between, the other sessions do what they like with the relay, except for taking from the queue
of the player. -/
inductive Playback (subscriber : Subscriber) (start : Session) (origin : Relay) :
    Bytes → List Packet → Bool → Session → Relay → Prop where
  | start : Playback subscriber start origin [] [] false start origin
  | feed {fed queued session relay isReading} (playback : Playback subscriber start origin fed queued false session relay)
      (role : session.role = .player subscriber isReading) (bytes : Bytes) :
      Playback subscriber start origin (fed ++ bytes) queued false
        { session with endpoint := session.endpoint.feed bytes } relay
  | close {fed queued session relay isReading} (playback : Playback subscriber start origin fed queued false session relay)
      (role : session.role = .player subscriber isReading) :
      Playback subscriber start origin fed queued false { session with endpoint := session.endpoint.close } relay
  | queue {fed queued session relay isReading} (playback : Playback subscriber start origin fed queued false session relay)
      (role : session.role = .player subscriber isReading) (packets : List Packet) (later : Relay)
      (behind : (later.queue subscriber.id).toList = (relay.queue subscriber.id).toList ++ packets) :
      Playback subscriber start origin fed (queued ++ packets) false session later
  | step {fed queued session relay isReading} (playback : Playback subscriber start origin fed queued false session relay)
      (role : session.role = .player subscriber isReading) (random : Bytes) (first : Source) {reached : Step}
      (goes : session.step random first relay = reached) :
      Playback subscriber start origin fed queued (session.drains relay first) reached.1 reached.2.1

/-- An account of a player that balances. -/
def Balanced (subscriber : Subscriber) (start : Endpoint) (fed : Bytes) (queued : List Packet) (drained : Bool)
    (session : Session) (relay : Relay) : Prop :=
  ∃ account : Account, account.Balances start fed queued (ending drained) session.endpoint ∧
    Stage subscriber account session relay drained

theorem release_leaves {subscriber : Subscriber} {unsent : List Packet} {session : Session} {relay : Relay}
    {isReading : Bool} (role : session.role = .player subscriber isReading)
    (queue : unsent = (relay.queue subscriber.id).toList) : Leaves subscriber unsent (release relay session.role) :=
  ⟨relay, queue, congrArg (release relay) role⟩

section Steps
variable {account : Account} {subscriber : Subscriber} {start : Endpoint} {fed : Bytes} {queued : List Packet}
  {session : Session} {relay : Relay} {isReading : Bool} (role : session.role = .player subscriber isReading)
  (balances : account.Balances start fed queued [] session.endpoint) (settled : account.Settled session.endpoint.connection)
  (isOpen : session.endpoint.connection.phase ≠ .closed)
  (queue : account.unsent = (relay.queue subscriber.id).toList)
include role balances settled isOpen queue

theorem playQueued_balanced :
    Balanced subscriber start fed queued (relay.receive subscriber).2.isClosed (session.playQueued relay subscriber).1
      (session.playQueued relay subscriber).2.1 := by
  obtain ⟨after, delivery, found⟩ : ∃ after delivery, relay.receive subscriber = (after, delivery) := ⟨_, _, rfl⟩
  rw [found]
  cases delivery with
  | packet packet =>
    have front := queue.trans (Relay.receive_packet found)
    cases written : packet.toMessage.toBytes session.endpoint.connection.outChunkSize with
    | ok bytes =>
      rw [playQueued_packet found written]
      have still : (account.send packet (after.queue subscriber.id).toList).Settled session.endpoint.connection :=
        ⟨settled.pending, settled.incomplete, settled.connection⟩
      exact ⟨_, balances.send front written, .playing role still isOpen rfl⟩
    | error error =>
      rw [playQueued_unwritable found written]
      exact ⟨account, balances, .unwritable rfl settled front (release_leaves role rfl) written⟩
  | empty =>
    obtain ⟨same, -⟩ := Prod.mk.inj ((Relay.receive_empty (by rw [found]; rfl)).symm.trans found)
    rw [playQueued, found, ← same]
    exact ⟨account, balances, .playing role settled isOpen queue⟩
  | closed =>
    obtain ⟨rfl, nothing⟩ := Relay.receive_closed found
    obtain ⟨bytes, written, ran⟩ := playQueued_closed session found
    rw [ran]
    exact ⟨account, balances.drain written, .drained rfl settled (release_leaves role queue) (queue.trans nothing)⟩

theorem playInbound_balanced :
    Balanced subscriber start fed queued false (session.playInbound relay subscriber).1
      (session.playInbound relay subscriber).2.1 := by
  rw [playInbound_eq]
  split
  next nothing =>
    split
    next ended =>
      have unread := List.isEmpty_iff.mp nothing
      exact ⟨account, balances, .hungUp rfl settled (release_leaves role queue) ended unread⟩
    next => exact ⟨account, balances, .playing role settled isOpen queue⟩
  next => exact ⟨account, balances, .playing rfl settled isOpen queue⟩

/-- The message that a player has begun: it is answered, or what follows is not looked at. -/
theorem playMessage_balanced :
    Balanced subscriber start fed queued false (session.playMessage relay subscriber).1
      (session.playMessage relay subscriber).2.1 := by
  rcases Endpoint.readMessage_converses session.endpoint isOpen with
    ⟨message, middle, read, acknowledgements, taken, converses, phase⟩ |
    ⟨last, read, acknowledgements, stopped, converses, phase, missing⟩
  · have asked := balances.converse settled converses
    rcases Endpoint.handle_answers message middle with
      ⟨error, refused, failed⟩ | ⟨next, replies, sent, bytes, accepted, front, wire, ran⟩
    · rw [playMessage_refused taken failed]
      exact ⟨_, asked, .refused rfl (release_leaves role queue) rfl rfl failed (settled.incomplete ▸ List.nil_prefix)⟩
    · rcases ran with ⟨rfl, went⟩ | ⟨error, failed⟩
      · have answered := balances.converse settled (converses.handle accepted wire)
        rw [playMessage_handled taken went]
        split
        next closed => exact ⟨_, answered, .closed rfl ⟨rfl, settled.incomplete, rfl⟩ (release_leaves role queue) closed⟩
        next still => exact ⟨_, answered, .playing rfl ⟨rfl, settled.incomplete, rfl⟩ still queue⟩
      · rw [playMessage_refused taken failed]
        exact ⟨_, asked.breakOff settled.incomplete rfl rfl wire,
          .refused rfl (release_leaves role queue) rfl rfl failed (Connection.replies_eq accepted ▸ front)⟩
  · have waits := balances.converse settled converses
    rw [playMessage_starved stopped]
    split
    next ended => exact ⟨_, waits, .truncated rfl ⟨rfl, settled.incomplete, rfl⟩ (release_leaves role queue) ended missing⟩
    next => exact ⟨_, waits, .playing role ⟨rfl, settled.incomplete, rfl⟩ (phase ▸ isOpen) queue⟩

end Steps

theorem Balanced.playing {subscriber other : Subscriber} {start : Endpoint} {fed : Bytes} {queued : List Packet}
    {drained : Bool} {session : Session} {relay : Relay} {isReading : Bool}
    (balanced : Balanced subscriber start fed queued drained session relay)
    (role : session.role = .player other isReading) :
    other = subscriber ∧ ∃ account : Account, account.Balances start fed queued [] session.endpoint ∧
      account.Settled session.endpoint.connection ∧ session.endpoint.connection.phase ≠ .closed ∧
      account.unsent = (relay.queue subscriber.id).toList := by
  obtain ⟨account, balances, stage⟩ := balanced
  cases stage with
  | playing same settled isOpen queue =>
    cases role.symm.trans same
    exact ⟨rfl, account, balances, settled, isOpen, queue⟩
  | drained gone | hungUp gone | closed gone | refused gone | truncated gone | unwritable gone =>
    cases role.symm.trans gone

theorem Balanced.step {subscriber : Subscriber} {start : Endpoint} {fed : Bytes} {queued : List Packet} {session : Session}
    {relay : Relay} {isReading : Bool} (balanced : Balanced subscriber start fed queued false session relay)
    (role : session.role = .player subscriber isReading) (random : Bytes) (first : Source) :
    Balanced subscriber start fed queued (session.drains relay first) (session.step random first relay).1
      (session.step random first relay).2.1 := by
  obtain ⟨_, account, balances, settled, isOpen, queue⟩ := balanced.playing role
  rw [drains, Session.step, role]
  cases isReading with
  | true => exact playMessage_balanced role balances settled isOpen queue
  | false =>
    dsimp only
    rw [playStep_eq]
    cases turned : session.turnsTo relay subscriber first with
    | none => exact balanced
    | some source =>
      cases source with
      | queue =>
        rw [decide_eq_true rfl, Bool.true_and]
        exact playQueued_balanced role balances settled isOpen queue
      | inbound => exact playInbound_balanced role balances settled isOpen queue

theorem Playback.balanced {subscriber : Subscriber} {start session : Session} {origin relay : Relay} {fed : Bytes}
    {queued : List Packet} {drained isReading : Bool} (role : start.role = .player subscriber isReading)
    (isOpen : start.endpoint.connection.phase ≠ .closed)
    (playback : Playback subscriber start origin fed queued drained session relay) :
    Balanced subscriber start.endpoint fed ((origin.queue subscriber.id).toList ++ queued) drained session relay := by
  induction playback with
  | start =>
    refine ⟨⟨[], [], [], none, [], start.endpoint.connection, [], (origin.queue subscriber.id).toList, []⟩, ?_,
      .playing role ⟨rfl, rfl, rfl⟩ isOpen rfl⟩
    exact ⟨List.append_nil _, .start, List.append_nil _, .nil, [], Array.appendList_nil.symm, .nil⟩
  | feed playback role bytes ih =>
    obtain ⟨_, account, balances, settled, isOpen, queue⟩ := ih.playing role
    refine ⟨account, { balances with inbound := ?_ }, .playing role settled isOpen queue⟩
    rw [← List.append_assoc, balances.inbound, List.append_assoc]
    rfl
  | close playback role ih =>
    obtain ⟨_, account, balances, settled, isOpen, queue⟩ := ih.playing role
    exact ⟨account, { balances with }, .playing role settled isOpen queue⟩
  | queue playback role packets later behind ih =>
    obtain ⟨_, account, balances, settled, isOpen, queue⟩ := ih.playing role
    refine ⟨{ account with unsent := account.unsent ++ packets }, { balances with queue := ?_ },
      .playing role ⟨settled.pending, settled.incomplete, settled.connection⟩ isOpen ?_⟩
    · rw [← List.append_assoc, balances.queue, List.append_assoc]
    · rw [behind, ← queue]
  | step playback role random first goes ih =>
    cases goes
    exact ih.step role random first

section Outgoing
variable {account : Account} {subscriber : Subscriber} {session : Session} {relay : Relay} {start : Endpoint} {fed : Bytes}
  {queued : List Packet} {last : List Message} {endpoint : Endpoint} {drained : Bool}

/-- What went out of an answer that broke off is part of an answer. -/
theorem Stage.incomplete (stage : Stage subscriber account session relay drained) :
    ∀ reply ∈ account.incomplete, ∃ message, account.connection.Answer message reply := by
  cases stage with
  | @refused message middle _ _ _ _ connection _ begun =>
    intro reply member
    rw [connection]
    exact ⟨message, Connection.answer_of_mem_replies (begun.subset member)⟩
  | playing _ settled | drained _ settled | hungUp _ settled | closed _ settled | truncated _ settled
  | unwritable _ settled =>
    rw [settled.incomplete]
    exact List.forall_mem_nil _

theorem Account.Balances.regular (balances : account.Balances start fed queued last endpoint)
    (stage : Stage subscriber account session relay drained) (ranged : start.connection.Ranged) :
    ∀ message ∈ account.written, message.Regular := by
  intro message member
  obtain ⟨still, answers⟩ := balances.exchange.regular ranged
  rcases balances.order.mem member with queued | answered
  · obtain ⟨packet, _, rfl⟩ := List.mem_map.mp queued
    exact packet.toMessage_regular
  · rcases List.mem_append.mp answered with complete | begun
    · exact answers message complete
    · obtain ⟨asked, answer⟩ := stage.incomplete message begun
      exact answer.regular still

end Outgoing

/-- A player of "other". -/
def listener : Session :=
  (Session.new .standard).stepWith (protocolVersion :: List.replicate (2 * Handshake.helloSize) 0 ++ plays)

/-- The publisher of "other" has left, and one packet is still queued. -/
def deserted : Relay :=
  ⟨16, 2, 2, [], [(1, .ofList [Endpoint.sound])]⟩

/-- A ping. -/
def pings : Bytes :=
  [2, 0, 0, 0, 0, 0, 6, 4, 0, 0, 0, 0, 0, 6, 0, 0, 0, 9]

def greeted : Session :=
  { listener with endpoint := listener.endpoint.feed pings }

def pinged : Step :=
  greeted.step [] .inbound deserted

def answered : Step :=
  pinged.1.step [] .queue pinged.2.1

theorem Playback.goesOn {subscriber : Subscriber} {start session : Session} {origin relay : Relay} {fed : Bytes}
    {queued : List Packet} {isReading drained : Bool} {first : Source} {reached : Step}
    (playback : Playback subscriber start origin fed queued false session relay)
    (place : session.role.place? = some (subscriber, isReading)) (drains : session.drains relay first = drained)
    (goes : session.step [] first relay = reached) :
    Playback subscriber start origin fed queued drained reached.1 reached.2.1 :=
  drains ▸ playback.step (Role.of_place? place) [] first goes

end Session
end RtmpRelay
