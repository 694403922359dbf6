import RtmpRelay.Proofs.Alongside
import RtmpRelay.Proofs.Roles

/-! A connection gives back what it took, however it ends: every way out goes through `Session.finish`, also if the
transport breaks in the middle of an action. The invariant tells what the session has in the relay, next to the relay as
it would be without the session. -/

namespace RtmpRelay

namespace Endpoint

theorem settled_of_past {phase : Phase} (past : ∀ stage, phase ≠ .handshaking stage) (read : phase ≠ .readingHeader) :
    phase.isSettled = true := by
  cases phase with
  | handshaking stage => exact absurd rfl (past stage)
  | readingHeader => exact absurd rfl read
  | publishing | playing | closed => rfl

/-- The header is read until the client has said what it is for or has given up. -/
theorem readHeaderFrom_settles (rounds : Bytes) {endpoint after : Endpoint}
    (past : ∀ stage, endpoint.connection.phase ≠ .handshaking stage)
    (read : readHeaderFrom rounds endpoint = .ok () after) : after.connection.phase.isSettled = true := by
  induction rounds generalizing endpoint with
  | nil =>
    rw [readHeaderFrom, bind_connection?] at read
    split at read
    · rw [starve_eq] at read
      cases read
    next other =>
      cases read
      exact settled_of_past past other
  | cons round rounds ih =>
    rw [readHeaderFrom, bind_connection?] at read
    split at read
    next reading =>
      obtain ⟨message, middle, taken, rest⟩ := of_bind_ok read
      obtain ⟨_, last, handled, further⟩ := of_bind_ok rest
      obtain ⟨next, turned, quiet⟩ := handle_turns message middle
      rw [handled] at quiet
      have before : ∀ stage, middle.connection.phase ≠ .handshaking stage := by
        rw [(Hears.of_readMessage taken).unturned.phase]
        exact past
      refine ih ?_ further
      rw [show last.connection.phase = next.phase from quiet.unturned.phase]
      rcases turned with turn | rfl
      · exact turn.past before
      · exact before
    next other =>
      cases read
      exact settled_of_past past other

theorem readHeader_settles {endpoint after : Endpoint} (read : readHeader endpoint = .ok () after) :
    after.connection.phase.isSettled = true := by
  obtain ⟨connection, middle, seen, rest⟩ := of_bind_ok read
  cases seen
  split at rest
  next stage handshaking =>
    obtain ⟨_, _, failed, _⟩ := of_bind_ok rest
    cases failed
  next past => exact readHeaderFrom_settles endpoint.inbound past rest

end Endpoint

/-- What a connection can have of the relay. -/
inductive Part where
  | publisher (claim : Publisher)
  | player (subscriber : Subscriber)
deriving DecidableEq

def Role.part? : Role → Option Part
  | .publisher claim => some (.publisher claim)
  | .player subscriber _ => some (.player subscriber)
  | .negotiating | .finished _ => none

namespace Session
open Relay (History Run Claimed Publishing Playing LeftByPublisher LeftByPlayer)

def IsActive (session : Session) : Prop :=
  ∀ result, session.role ≠ .finished result

/-- Why a session has ended without a part in the relay. -/
inductive Unregistered (without : Relay) (endpoint : Endpoint) : Except Error Unit → Prop where
  | failed {random : Bytes} {before : Endpoint} {error : Error}
      (negotiated : negotiate random before = .error (.failed error) endpoint) :
      Unregistered without endpoint (.error error)
  | broken (fault : TransportFault) : Unregistered without endpoint (.error (.transport fault))
  | closed (phase : endpoint.connection.phase = .closed) : Unregistered without endpoint (.ok ())
  | refused (taken : without.hasPublisher endpoint.connection.streamKey = true) :
      Unregistered without endpoint (.error (.alreadyPublishing endpoint.connection.streamKey))

/-- A session and the relay with it, next to the relay without it. -/
inductive Accounted (without : Relay) : Option Part → Session → Relay → Prop where
  | negotiating {endpoint : Endpoint} : Accounted without none ⟨endpoint, .negotiating⟩ without
  | publisher {endpoint : Endpoint} {relay : Relay} {claim : Publisher} (publishing : Publishing without relay claim) :
      Accounted without (some (.publisher claim)) ⟨endpoint, .publisher claim⟩ relay
  | player {endpoint : Endpoint} {relay : Relay} {subscriber : Subscriber} {isReading : Bool}
      (playing : Playing without relay subscriber) :
      Accounted without (some (.player subscriber)) ⟨endpoint, .player subscriber isReading⟩ relay
  | unregistered {endpoint : Endpoint} {result : Except Error Unit} (cause : Unregistered without endpoint result) :
      Accounted without none ⟨endpoint, .finished result⟩ without
  | unpublished {endpoint : Endpoint} {result : Except Error Unit} {relay : Relay} {claim : Publisher}
      (left : LeftByPublisher without relay claim) :
      Accounted without (some (.publisher claim)) ⟨endpoint, .finished result⟩ relay
  | unsubscribed {endpoint : Endpoint} {result : Except Error Unit} {relay : Relay} {subscriber : Subscriber}
      (left : LeftByPlayer without relay subscriber) :
      Accounted without (some (.player subscriber)) ⟨endpoint, .finished result⟩ relay

section Steps
variable {capacity : Nat} {history : History} {without relay : Relay} {endpoint : Endpoint}

theorem publishStep_accounted {claim : Publisher} (run : Run capacity history without)
    (publishing : Publishing without relay claim) :
    let reached := publishStep ⟨endpoint, .publisher claim⟩ relay claim
    Accounted without (some (.publisher claim)) reached.1 reached.2.1 := by
  have left := publishing.left run.accounts
  unfold publishStep
  split
  · exact .unpublished left
  · unfold perform
    split
    next packet after _ =>
      cases packet with
      | some packet => exact .publisher (publishing.send packet)
      | none => exact .publisher publishing
    next => exact .publisher publishing
    next => exact .unpublished left

theorem negotiate_settles {random : Bytes} {after : Endpoint} {phase : Phase}
    (negotiated : negotiate random endpoint = .ok phase after) : phase.isSettled = true := by
  have same := negotiate_phase negotiated
  obtain ⟨connection, middle, _, rest⟩ := Endpoint.of_bind_ok negotiated
  let headed : Action Phase := do
    Endpoint.readHeader
    return (← Endpoint.connection?).phase
  have settles : ∀ {start : Endpoint}, headed start = .ok phase after → phase.isSettled = true := by
    intro start ran
    obtain ⟨_, last, read, answered⟩ := Endpoint.of_bind_ok ran
    cases answered
    exact Endpoint.readHeader_settles read
  split at rest
  · obtain ⟨_, last, _, read⟩ := Endpoint.of_bind_ok rest
    exact settles read
  · exact settles rest

/-- What a player's steps lead to. Only a player that goes on may have to wait. -/
inductive Plays (without : Relay) (subscriber : Subscriber) : Step → Prop where
  | on {endpoint : Endpoint} {isReading : Bool} {relay : Relay} {progress : Progress}
      (playing : Playing without relay subscriber) :
      Plays without subscriber (⟨endpoint, .player subscriber isReading⟩, relay, progress)
  | ended {endpoint : Endpoint} {result : Except Error Unit} {relay : Relay}
      (left : LeftByPlayer without relay subscriber) :
      Plays without subscriber (⟨endpoint, .finished result⟩, relay, .moved)

variable {subscriber : Subscriber} {isReading : Bool}

theorem Plays.accounted {reached : Step} (plays : Plays without subscriber reached) :
    Accounted without (some (.player subscriber)) reached.1 reached.2.1 := by
  cases plays with
  | on playing => exact .player playing
  | ended left => exact .unsubscribed left

theorem Plays.finish (run : Run capacity history without) (playing : Playing without relay subscriber)
    (result : Except Error Unit) :
    Plays without subscriber (Session.finish ⟨endpoint, .player subscriber isReading⟩ relay result) :=
  .ended (playing.left run.accounts run.queues)

theorem perform_plays {action : Action α} {next : Session → α → Step} (run : Run capacity history without)
    (playing : Playing without relay subscriber)
    (goes : ∀ value endpoint, Plays without subscriber (next ⟨endpoint, .player subscriber isReading⟩ value)) :
    Plays without subscriber (perform ⟨endpoint, .player subscriber isReading⟩ relay action next) := by
  unfold perform
  split
  next value after _ => exact goes value after
  next => exact .on playing
  next => exact .finish run playing _

theorem playQueued_plays (run : Run capacity history without) (playing : Playing without relay subscriber) :
    Plays without subscriber (playQueued ⟨endpoint, .player subscriber isReading⟩ relay subscriber) := by
  have received := playing.receive
  unfold playQueued
  split
  next after packet taken =>
    rw [taken] at received
    exact perform_plays run received fun _ _ => .on received
  next after taken =>
    rw [taken] at received
    exact .on received
  next after taken =>
    rw [taken] at received
    exact perform_plays run received fun _ _ => .finish run received _

theorem playInbound_plays (run : Run capacity history without) (playing : Playing without relay subscriber) :
    Plays without subscriber (playInbound ⟨endpoint, .player subscriber isReading⟩ relay subscriber) := by
  refine perform_plays run playing fun hasMore after => ?_
  cases hasMore with
  | true => exact .on playing
  | false => exact .finish run playing _

theorem playMessage_plays (run : Run capacity history without) (playing : Playing without relay subscriber) :
    Plays without subscriber (playMessage ⟨endpoint, .player subscriber isReading⟩ relay subscriber) := by
  unfold playMessage
  dsimp only
  refine perform_plays run playing fun phase after => ?_
  dsimp only
  split
  · exact .finish run playing _
  · exact .on playing

theorem otherwise_plays {reached : Step} {next : Session → Relay → Step} (first : Plays without subscriber reached)
    (second : ∀ endpoint isReading relay, Playing without relay subscriber →
      Plays without subscriber (next ⟨endpoint, .player subscriber isReading⟩ relay)) :
    Plays without subscriber (otherwise reached next) := by
  cases first with
  | @on endpoint isReading relay progress playing =>
    cases progress with
    | moved => exact .on playing
    | waiting => exact second endpoint isReading relay playing
  | ended left => exact .ended left

theorem playStep_plays (run : Run capacity history without) (playing : Playing without relay subscriber)
    (first : Source) :
    Plays without subscriber (playStep ⟨endpoint, .player subscriber isReading⟩ relay subscriber first) := by
  cases first with
  | queue => exact otherwise_plays (playQueued_plays run playing) fun _ _ _ => playInbound_plays run
  | inbound => exact otherwise_plays (playInbound_plays run playing) fun _ _ _ => playQueued_plays run

theorem assignRole_accounted (run : Run capacity history without) {phase : Phase} (settled : phase.isSettled = true)
    (same : phase = endpoint.connection.phase) :
    let reached := assignRole ⟨endpoint, .negotiating⟩ without phase
    Accounted without reached.1.role.part? reached.1 reached.2.1 := by
  unfold assignRole
  dsimp only
  split
  next =>
    split
    next relay claim given => exact .publisher (.start run.accounts.ascending given)
    next error refused =>
      obtain ⟨rfl, taken, _⟩ := Relay.publish_error refused
      refine .unregistered (.refused ?_)
      rwa [Relay.Accounts.hasPublisher_eq, Option.isSome_iff_ne_none]
  next =>
    obtain ⟨relay, subscriber, accepted⟩ : ∃ relay subscriber,
        without.subscribe endpoint.connection.streamKey = (relay, subscriber) := ⟨_, _, rfl⟩
    rw [accepted]
    exact .player (.start run.accounts.ascending run.queues.ascending accepted)
  next notPublishing notPlaying =>
    refine .unregistered (.closed ?_)
    rw [← same]
    cases phase with
    | handshaking | readingHeader => cases settled
    | publishing => exact absurd rfl notPublishing
    | playing => exact absurd rfl notPlaying
    | closed => rfl

theorem Accounted.part_or {part : Option Part} {session : Session} (accounted : Accounted without part session relay) :
    session.role.part?.or part = part := by
  cases accounted <;> rfl

theorem Accounted.step {part : Option Part} {session : Session} (accounted : Accounted without part session relay)
    (run : Run capacity history without) (random : Bytes) (first : Source) :
    let reached := session.step random first relay
    Accounted without (reached.1.role.part?.or part) reached.1 reached.2.1 := by
  have kept : ∀ {reached : Step}, Accounted without part reached.1 reached.2.1 →
      Accounted without (reached.1.role.part?.or part) reached.1 reached.2.1 :=
    fun same => same.part_or.symm ▸ same
  cases accounted with
  | @negotiating endpoint =>
    unfold Session.step
    dsimp only
    rw [Option.or_none]
    unfold perform
    cases negotiated : negotiate random endpoint with
    | ok phase after =>
      exact assignRole_accounted run (negotiate_settles negotiated) (negotiate_phase negotiated)
    | error stop after =>
      cases stop with
      | waiting => exact .negotiating
      | failed error => exact .unregistered (.failed negotiated)
  | publisher publishing => exact kept (publishStep_accounted run publishing)
  | @player endpoint _ _ isReading playing =>
    cases isReading with
    | true => exact kept (playMessage_plays run playing).accounted
    | false => exact kept (playStep_plays run playing first).accounted
  | unregistered cause => exact kept (.unregistered cause)
  | unpublished left => exact kept (.unpublished left)
  | unsubscribed left => exact kept (.unsubscribed left)

theorem Accounted.withEndpoint {part : Option Part} {session : Session}
    (accounted : Accounted without part session relay) (active : session.IsActive) (endpoint : Endpoint) :
    Accounted without part { session with endpoint } relay := by
  cases accounted with
  | negotiating => exact .negotiating
  | publisher publishing => exact .publisher publishing
  | player playing => exact .player playing
  | unregistered | unpublished | unsubscribed => exact absurd rfl (active _)

theorem Accounted.broken {part : Option Part} {session : Session} (accounted : Accounted without part session relay)
    (active : session.IsActive) (run : Run capacity history without) (endpoint : Endpoint)
    (fault : TransportFault) :
    let reached := finish { session with endpoint } relay (.error (.transport fault))
    Accounted without part reached.1 reached.2.1 := by
  cases accounted with
  | negotiating => exact .unregistered (.broken fault)
  | publisher publishing => exact .unpublished (publishing.left run.accounts)
  | player playing => exact .unsubscribed (playing.left run.accounts run.queues)
  | unregistered | unpublished | unsubscribed => exact absurd rfl (active _)

theorem Accounted.received {part : Option Part} {session : Session} (accounted : Accounted without part session relay)
    (role : session.role = .player subscriber isReading) :
    Accounted without part session (relay.receive subscriber).1 := by
  cases accounted with
  | player playing =>
    cases role
    exact .player playing.receive
  | negotiating | publisher | unregistered | unpublished | unsubscribed => cases role

theorem Accounted.departed {part : Option Part} {session : Session} (accounted : Accounted without part session relay)
    (active : session.IsActive) (ascending : without.streams.Ascending) {claim : Publisher}
    (leaves : Claimed without claim) :
    Accounted (without.dropPublisher claim) part session (relay.dropPublisher claim) := by
  cases accounted with
  | negotiating => exact .negotiating
  | publisher publishing => exact .publisher (publishing.departed ascending leaves)
  | player playing => exact .player (playing.departed ascending leaves)
  | unregistered | unpublished | unsubscribed => exact absurd rfl (active _)

end Steps

/-- What can become of a session on a relay, whatever its client sends and whenever the transport breaks: at any time,
or when a packet has been taken from the queue and is to be written. Next to it stands the relay as it would be without
the session. Other clients do nothing, but a publisher may leave. -/
inductive Served (settings : ConnectionSettings) (capacity : Nat) :
    History → Relay → Option Part → Session → Relay → Prop where
  | new {history without} (run : Run capacity history without) :
      Served settings capacity history without none (.new settings) without
  | feed {history without part session relay} (served : Served settings capacity history without part session relay)
      (active : session.IsActive) (bytes : Bytes) :
      Served settings capacity history without part { session with endpoint := session.endpoint.feed bytes } relay
  | close {history without part session relay} (served : Served settings capacity history without part session relay)
      (active : session.IsActive) :
      Served settings capacity history without part { session with endpoint := session.endpoint.close } relay
  | step {history without part session relay} (served : Served settings capacity history without part session relay)
      (random : Bytes) (first : Source) {reached : Step} (goes : session.step random first relay = reached) :
      Served settings capacity history without (reached.1.role.part?.or part) reached.1 reached.2.1
  | broken {history without part session relay} (served : Served settings capacity history without part session relay)
      (active : session.IsActive) (endpoint : Endpoint) (fault : TransportFault) {reached : Step}
      (ends : finish { session with endpoint } relay (.error (.transport fault)) = reached) :
      Served settings capacity history without part reached.1 reached.2.1
  | brokenWriting {history without part session relay subscriber isReading}
      (served : Served settings capacity history without part session relay)
      (role : session.role = .player subscriber isReading) (endpoint : Endpoint) (fault : TransportFault)
      {reached : Step}
      (ends : finish { session with endpoint } (relay.receive subscriber).1 (.error (.transport fault)) = reached) :
      Served settings capacity history without part reached.1 reached.2.1
  | departed {history without part session relay} (served : Served settings capacity history without part session relay)
      (active : session.IsActive) {claim : Publisher} (held : claim ∈ history.publishers) :
      Served settings capacity (.unpublished claim :: history) (without.dropPublisher claim) part session
        (relay.dropPublisher claim)

namespace Served
variable {settings : ConnectionSettings} {capacity : Nat} {history : History} {without relay : Relay}
  {part : Option Part} {session : Session}

theorem run (served : Served settings capacity history without part session relay) : Run capacity history without := by
  induction served with
  | new run => exact run
  | feed served active bytes ih | close served active ih => exact ih
  | step served random first goes ih => exact ih
  | broken served active endpoint fault ends ih => exact ih
  | brokenWriting served role endpoint fault ends ih => exact ih
  | departed served active held ih => exact ih.step (.unpublish held)

theorem accounted (served : Served settings capacity history without part session relay) :
    Accounted without part session relay := by
  induction served with
  | new run => exact .negotiating
  | feed served active bytes ih | close served active ih => exact ih.withEndpoint active _
  | step served random first goes ih => exact goes ▸ ih.step served.run random first
  | broken served active endpoint fault ends ih => exact ends ▸ ih.broken active served.run endpoint fault
  | brokenWriting served role endpoint fault ends ih =>
    have active : Session.IsActive _ := fun result same => (nomatch role.symm.trans same)
    exact ends ▸ (ih.received role).broken active served.run endpoint fault
  | departed served active held ih =>
    have accounts := served.run.accounts
    exact ih.departed active accounts.ascending (accounts.isClaimed held)

end Served

/-- However a session ends, it gives back what it had. If it never had a part, the relay is the one without it. A player
leaves it as it would be, and a publisher leaves it without the stream of its key. -/
theorem finished_session_gives_back {settings : ConnectionSettings} {capacity : Nat} {history : History}
    {without relay : Relay} {part : Option Part} {session : Session} {result : Except Error Unit}
    (served : Served settings capacity history without part session relay)
    (finished : session.role = .finished result) :
    (part = none → relay = without ∧ Unregistered without session.endpoint result) ∧
    (∀ subscriber, part = some (.player subscriber) → LeftByPlayer without relay subscriber) ∧
    ∀ claim, part = some (.publisher claim) → LeftByPublisher without relay claim := by
  have accounted := served.accounted
  cases accounted with
  | negotiating | publisher | player => cases finished
  | unregistered cause =>
    cases finished
    exact ⟨fun _ => ⟨rfl, cause⟩, fun _ same => (nomatch same), fun _ same => (nomatch same)⟩
  | unpublished left =>
    exact ⟨fun same => (nomatch same), fun _ same => (nomatch same), fun _ same => by cases same; exact left⟩
  | unsubscribed left =>
    exact ⟨fun same => (nomatch same), fun _ same => by cases same; exact left, fun _ same => (nomatch same)⟩

/-- Somebody waits for "cam", and another key has a publisher. -/
def waitingRoom : History :=
  [.published ⟨"live/dog", 2, 2⟩, .subscribed ⟨"/cam", 1⟩]

def awaited : Relay :=
  ⟨16, 3, 3, [("/cam", ⟨1, none, [1], none, none, none⟩), ("live/dog", ⟨2, some 2, [], none, none, none⟩)],
    [(1, .ofList [])]⟩

theorem awaited_run : Run 16 waitingRoom awaited := by
  have joined := Run.step (Run.new : Run 16 _ _) (.subscribe (show Relay.subscribe _ "/cam" = _ from rfl))
  exact Run.step joined (.publish (show Relay.publish _ "live/dog" = _ from rfl))

/-- A step with what has come in. -/
def stepOn (reached : Step) (bytes : Bytes) : Step :=
  { reached.1 with endpoint := reached.1.endpoint.feed bytes }.step
    (List.replicate Handshake.randomSize 0) .queue reached.2.1

theorem isActive_of_part {session : Session} (part : session.role.part?.isSome = true) : session.IsActive := by
  intro result finished
  rw [finished] at part
  cases part

def registered : Step :=
  stepOn (.new .standard, awaited, .waiting) publishes

def sending : Step :=
  stepOn registered sounds

/-- The publisher is cut off before its next message. -/
def interrupted : Step :=
  { sending.1 with endpoint := sending.1.endpoint.close }.step [] .queue sending.2.1

theorem interrupted_served :
    Served .standard 16 waitingRoom awaited (some (.publisher ⟨"/cam", 3, 1⟩)) interrupted.1 interrupted.2.1 := by
  have start : Served .standard 16 waitingRoom awaited none (.new .standard) awaited := .new awaited_run
  have greeted := start.feed (fun _ => Role.noConfusion) publishes
  have claims := greeted.step (List.replicate Handshake.randomSize 0) .queue (show _ = registered from rfl)
  have claimed : registered.1.role.part?.or none = some (.publisher ⟨"/cam", 3, 1⟩) := by decide +kernel
  have sends := (claims.feed (isActive_of_part (by decide +kernel)) sounds).step
    (List.replicate Handshake.randomSize 0) .queue (show _ = sending from rfl)
  have still : sending.1.role.part? = some (.publisher ⟨"/cam", 3, 1⟩) := by decide +kernel
  have closed := (sends.close (isActive_of_part (by rw [still]; rfl))).step [] .queue (show _ = interrupted from rfl)
  have ended : interrupted.1.role.part? = none := by decide +kernel
  rwa [ended, still, Option.none_or, Option.some_or] at closed

/-- The one who waited is cut off with the sound in its queue, and the other key is as it was. -/
theorem interrupted_publisher_gives_back :
    (∃ error, interrupted.1.role = .finished (.error error)) ∧
      interrupted.2.1.streams = [("live/dog", ⟨2, some 2, [], none, none, none⟩)] ∧
      interrupted.2.1.isJoined ⟨"/cam", 1⟩ = false ∧ (interrupted.2.1.queue 1).size = 1 := by
  have ended : (match interrupted.1.role with | .finished (.error _) => true | _ => false) = true := by decide +kernel
  split at ended
  next error finished =>
    obtain ⟨_, _, left⟩ := finished_session_gives_back interrupted_served finished
    obtain ⟨⟨_, _, _, same, _⟩, _, cutOff, _⟩ := left _ rfl
    have queued : (interrupted.2.1.queue 1).size = 1 := by decide +kernel
    exact ⟨⟨error, finished⟩, by rw [same]; rfl, cutOff _ rfl, queued⟩
  next => cases ended

end Session
end RtmpRelay
