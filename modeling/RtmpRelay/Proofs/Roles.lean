import RtmpRelay.Proofs.Hearing
import RtmpRelay.Proofs.Registry
import RtmpRelay.Session

/-! What a connection is for. A client says so once, and from then on it publishes or plays under the key that it was
registered with. The dispatcher of commands does not look at the phase, though, so a client that asks again is heard
again: its place in the relay stays what it was, but the connection takes the other role or another key. What is shown
of every session is that this cannot happen without such a request. -/

namespace RtmpRelay

/-- Under which key the session takes part in the relay. -/
def Role.key? : Role → Option String
  | .publisher claim => some claim.key
  | .player subscriber _ => some subscriber.key
  | .negotiating | .finished _ => none

namespace Session
open Endpoint (Abides Hears left)

/-- What can become of a session, whatever its client sends, whatever other sessions do to the relay in the meantime and
whichever of its sources it looks at first. -/
inductive Onward (start : Session) : Session → Prop where
  | refl : Onward start start
  | feed {session} (onward : Onward start session) (bytes : Bytes) :
      Onward start { session with endpoint := session.endpoint.feed bytes }
  | close {session} (onward : Onward start session) :
      Onward start { session with endpoint := session.endpoint.close }
  | step {session} (onward : Onward start session) (random : Bytes) (first : Source) (relay : Relay) :
      Onward start (session.step random first relay).1

theorem negotiate_keeps (random : Bytes) : Endpoint.Keeps Connection.Consistent (negotiate random) := by
  refine Endpoint.Keeps.connection?.bind fun connection => ?_
  have further : Endpoint.Keeps Connection.Consistent (do
      Endpoint.readHeader
      return (← Endpoint.connection?).phase) :=
    Endpoint.readHeader_keeps.bind fun _ => Endpoint.Keeps.connection?.bind fun _ => .pure _
  split
  · exact (Endpoint.handshake_keeps random).bind fun _ => further
  · exact further

theorem negotiate_phase {random : Bytes} {endpoint after : Endpoint} {phase : Phase}
    (negotiated : negotiate random endpoint = .ok phase after) : phase = after.connection.phase := by
  obtain ⟨connection, middle, _, rest⟩ := Endpoint.of_bind_ok negotiated
  split at rest
  · obtain ⟨_, last, _, read⟩ := Endpoint.of_bind_ok rest
    exact Endpoint.phase_of_ok read
  · exact Endpoint.phase_of_ok rest

/-- A session that has been registered under a key, or was until it ended. A player ends as soon as its stream is
closed. -/
structure Serving (key : String) (session : Session) : Prop where
  role : session.role.key? = some key ∨ ∃ result, session.role = .finished result
  settled : session.endpoint.connection.phase.isSettled = true
  playing : ∀ subscriber isReading, session.role = .player subscriber isReading →
    session.endpoint.connection.phase ≠ .closed

theorem Serving.key_eq {key other : String} {session : Session} (serving : Serving key session)
    (named : session.role.key? = some other) : other = key := by
  rcases serving.role with same | ⟨result, finished⟩
  · exact Option.some.inj (named.symm.trans same)
  · rw [finished] at named
    cases named

theorem Serving.named {key : String} {session : Session} {subscriber : Subscriber} {isReading : Bool}
    (serving : Serving key session) (role : session.role = .player subscriber isReading) : subscriber.key = key :=
  serving.key_eq (by rw [role, Role.key?])

theorem Serving.heard {key : String} {session : Session} {endpoint : Endpoint} {heard : List Message}
    (serving : Serving key session) (hears : Hears session.endpoint heard endpoint) :
    Serving key { session with endpoint } := by
  refine ⟨serving.role, hears.abides.settled serving.settled, ?_⟩
  intro subscriber isReading same
  show endpoint.connection.phase ≠ .closed
  rw [hears.unturned.phase]
  exact serving.playing subscriber isReading same

structure Continues (key : String) (before after : Session) : Prop where
  serving : Serving key after
  abides : Abides before.endpoint after.endpoint
  closed : before.endpoint.connection.phase = .closed → after.endpoint.connection.phase = .closed

namespace Continues
variable {key : String} {first second third : Session}

theorem refl (serving : Serving key first) : Continues key first first :=
  ⟨serving, .refl _, id⟩

theorem trans (before : Continues key first second) (after : Continues key second third) : Continues key first third :=
  ⟨after.serving, before.abides.trans after.abides, after.closed ∘ before.closed⟩

theorem finish (serving : Serving key first) (abides : Abides first.endpoint second.endpoint)
    (closed : first.endpoint.connection.phase = .closed → second.endpoint.connection.phase = .closed) (relay : Relay)
    (result : Except Error Unit) : Continues key first (second.finish relay result).1 :=
  ⟨⟨.inr ⟨result, rfl⟩, abides.settled serving.settled, fun _ _ same => (nomatch same)⟩, abides, closed⟩

end Continues

/-- Where a step leads; a session that has to wait has kept its role. -/
structure Proceeds (key : String) (before : Session) (reached : Step) : Prop where
  continues : Continues key before reached.1
  waits : reached.2.2 = .waiting → reached.1.role = before.role

section Steps
variable {key : String} {session : Session} {relay : Relay}

theorem Proceeds.finish {after : Session} (serving : Serving key session) (abides : Abides session.endpoint after.endpoint)
    (closed : session.endpoint.connection.phase = .closed → after.endpoint.connection.phase = .closed)
    (result : Except Error Unit) : Proceeds key session (after.finish relay result) :=
  ⟨.finish serving abides closed relay result, fun waiting => (nomatch waiting)⟩

theorem Proceeds.wait (serving : Serving key session) : Proceeds key session (session, relay, .waiting) :=
  ⟨.refl serving, fun _ => rfl⟩

theorem Continues.hears {endpoint : Endpoint} {heard : List Message} (serving : Serving key session)
    (hears : Hears session.endpoint heard endpoint) : Continues key session { session with endpoint } :=
  ⟨serving.heard hears, hears.abides, fun closed => hears.unturned.phase.trans closed⟩

theorem perform_proceeds {action : Action α} {next : Session → α → Step} (serving : Serving key session)
    (isOpen : session.endpoint.connection.phase ≠ .closed)
    (abides : Abides session.endpoint (left (action session.endpoint))) (waits : Endpoint.Waits action)
    (goes : ∀ value endpoint, action session.endpoint = .ok value endpoint → Abides session.endpoint endpoint →
      Proceeds key session (next { session with endpoint } value)) :
    Proceeds key session (session.perform relay action next) := by
  unfold perform
  cases ran : action session.endpoint with
  | ok value endpoint =>
    rw [ran] at abides
    exact goes value endpoint ran abides
  | error stop endpoint =>
    cases stop with
    | waiting => exact ⟨.hears serving (waits _ endpoint ran), fun _ => rfl⟩
    | failed error =>
      rw [ran] at abides
      exact .finish serving abides (fun closed => absurd closed isOpen) _

theorem publishStep_proceeds {claim : Publisher} (serving : Serving key session)
    (role : session.role = .publisher claim) : Proceeds key session (session.publishStep relay claim) := by
  unfold publishStep
  split
  · exact .finish serving (.refl _) id _
  next isOpen =>
    refine perform_proceeds serving isOpen (Endpoint.readMedia_abides _) Endpoint.readMedia_waits ?_
    intro packet endpoint ran abides
    have held : Continues key session { session with endpoint } := by
      refine ⟨⟨serving.role, abides.settled serving.settled, ?_⟩, abides, fun closed => absurd closed isOpen⟩
      intro subscriber isReading same
      rw [role] at same
      cases same
    cases packet <;> exact ⟨held, fun waiting => (nomatch waiting)⟩

theorem playQueued_proceeds {subscriber : Subscriber} (serving : Serving key session)
    (isOpen : session.endpoint.connection.phase ≠ .closed) :
    Proceeds key session (session.playQueued relay subscriber) := by
  unfold playQueued
  split
  next after packet _ =>
    have hears := Endpoint.send_hears packet.toMessage session.endpoint
    refine perform_proceeds serving isOpen hears.abides (Endpoint.send_waits _) ?_
    intro value endpoint ran _
    have ran : Endpoint.send packet.toMessage session.endpoint = .ok value endpoint := ran
    rw [ran] at hears
    exact ⟨.hears serving hears, fun waiting => (nomatch waiting)⟩
  next => exact .wait serving
  next =>
    refine perform_proceeds serving isOpen (Endpoint.send_hears _ _).abides (Endpoint.send_waits _) ?_
    exact fun value endpoint ran abides => .finish serving abides (fun closed => absurd closed isOpen) _

/-- A player with its stream open, which may have looked at its queue before. -/
theorem Continues.player {subscriber : Subscriber} {isReading : Bool} {endpoint : Endpoint} (serving : Serving key session)
    (named : subscriber.key = key) (isOpen : session.endpoint.connection.phase ≠ .closed)
    (abides : Abides session.endpoint endpoint) (still : endpoint.connection.phase ≠ .closed) :
    Continues key session ⟨endpoint, .player subscriber isReading⟩ :=
  ⟨⟨.inl (congrArg some named), abides.settled serving.settled, fun _ _ _ => still⟩, abides,
    fun closed => absurd closed isOpen⟩

theorem playInbound_proceeds {subscriber : Subscriber} (serving : Serving key session)
    (named : subscriber.key = key) (isOpen : session.endpoint.connection.phase ≠ .closed) :
    Proceeds key session (session.playInbound relay subscriber) := by
  have same := Endpoint.waitInbound_left session.endpoint
  have abides : Abides session.endpoint (left (Endpoint.waitInbound session.endpoint)) := same.symm ▸ .refl _
  refine perform_proceeds serving isOpen abides Endpoint.waitInbound_waits ?_
  intro hasMore endpoint ran abides
  rw [ran] at same
  cases hasMore with
  | true =>
    have still : endpoint.connection.phase ≠ .closed := by
      rw [show endpoint = session.endpoint from same]
      exact isOpen
    exact ⟨.player serving named isOpen abides still, fun waiting => (nomatch waiting)⟩
  | false => exact .finish serving abides (fun closed => absurd closed isOpen) _

theorem playMessage_proceeds {subscriber : Subscriber} (serving : Serving key session)
    (named : subscriber.key = key) (isOpen : session.endpoint.connection.phase ≠ .closed) :
    Proceeds key session (session.playMessage relay subscriber) := by
  unfold playMessage
  dsimp only
  refine perform_proceeds serving isOpen ?_ ?_ ?_
  · refine Endpoint.readMessage_abides _ fun message read heard => ?_
    rw [Endpoint.left_bind fun _ _ => rfl]
    exact Endpoint.handle_abides heard
  · refine Endpoint.readMessage_waits fun message endpoint stop after stopped => ?_
    exact Endpoint.handle_bind_fails (fun endpoint => ⟨endpoint.connection.phase, rfl⟩) stopped
  · intro phase endpoint ran abides
    obtain ⟨message, read, _, handled⟩ := Endpoint.of_bind_ok ran
    have same : phase = endpoint.connection.phase := Endpoint.phase_of_ok handled
    dsimp only
    split
    · exact .finish serving abides (fun closed => absurd closed isOpen) _
    next still =>
      exact ⟨.player serving named isOpen abides (same ▸ still), fun waiting => (nomatch waiting)⟩

theorem otherwise_proceeds {reached : Step} {next : Session → Relay → Step} (first : Proceeds key session reached)
    (second : ∀ middle relay, Continues key session middle → middle.role = session.role →
      Proceeds key middle (next middle relay)) : Proceeds key session (otherwise reached next) := by
  obtain ⟨middle, relay, progress⟩ := reached
  cases progress with
  | moved => exact first
  | waiting =>
    have further := second middle relay first.continues (first.waits rfl)
    exact ⟨first.continues.trans further.continues, fun waiting => (further.waits waiting).trans (first.waits rfl)⟩

theorem playStep_proceeds {subscriber : Subscriber} (serving : Serving key session)
    (role : session.role = .player subscriber false) (named : subscriber.key = key) (first : Source) :
    Proceeds key session (session.playStep relay subscriber first) := by
  have isOpen := serving.playing subscriber false role
  cases first with
  | queue =>
    refine otherwise_proceeds (playQueued_proceeds serving isOpen) fun middle relay continued same => ?_
    exact playInbound_proceeds continued.serving named (continued.serving.playing subscriber false (same.trans role))
  | inbound =>
    refine otherwise_proceeds (playInbound_proceeds serving named isOpen) fun middle relay continued same => ?_
    exact playQueued_proceeds continued.serving (continued.serving.playing subscriber false (same.trans role))

/-- A session never comes back from the role it got, whatever it is asked. -/
theorem step_continues (random : Bytes) (first : Source) (serving : Serving key session) (relay : Relay) :
    Continues key session (session.step random first relay).1 := by
  unfold step
  split
  next => exact .refl serving
  next role =>
    rcases serving.role with named | ⟨result, finished⟩
    · rw [role] at named
      cases named
    · rw [role] at finished
      cases finished
  next claim role => exact (publishStep_proceeds serving role).continues
  next subscriber role =>
    exact (playMessage_proceeds serving (serving.named role) (serving.playing subscriber true role)).continues
  next subscriber role => exact (playStep_proceeds serving role (serving.named role) first).continues

theorem Onward.continues {later : Session} (onward : Onward session later) (serving : Serving key session) :
    Continues key session later := by
  induction onward with
  | refl => exact .refl serving
  | feed onward bytes ih | close onward ih => exact ih.trans (.hears ih.serving ⟨.refl _, (List.append_nil _).symm⟩)
  | step onward random first relay ih => exact ih.trans (step_continues random first ih.serving relay)

/-- A session that has just got its role: the one that its client asked for, under the key of its stream. -/
inductive Registered (session : Session) : Prop where
  | publisher {claim : Publisher} (role : session.role = .publisher claim)
      (phase : session.endpoint.connection.phase = .publishing)
      (named : claim.key = session.endpoint.connection.streamKey) : Registered session
  | player {subscriber : Subscriber} (role : session.role = .player subscriber false)
      (phase : session.endpoint.connection.phase = .playing)
      (named : subscriber.key = session.endpoint.connection.streamKey) : Registered session

theorem step_registers (random : Bytes) (first : Source) (relay : Relay) (role : session.role = .negotiating)
    (consistent : session.endpoint.connection.Consistent) :
    let reached := (session.step random first relay).1
    reached.endpoint.connection.Consistent ∧
      (reached.role = .negotiating ∨ (∃ result, reached.role = .finished result) ∨ Registered reached) := by
  have kept := negotiate_keeps random session.endpoint consistent
  have unfolded : session.step random first relay =
      session.perform relay (negotiate random) fun session phase => assignRole session relay phase := by
    rw [step, role]
  rw [unfolded, perform]
  cases negotiated : negotiate random session.endpoint with
  | error stop after =>
    rw [negotiated] at kept
    cases stop with
    | waiting => exact ⟨kept, .inl role⟩
    | failed error => exact ⟨kept, .inr (.inl ⟨_, rfl⟩)⟩
  | ok phase after =>
    rw [negotiated] at kept
    have same := negotiate_phase negotiated
    dsimp only
    unfold assignRole
    dsimp only
    split
    next =>
      split
      next claimed claim given =>
        obtain ⟨_, rfl, _⟩ := Relay.publish_ok given
        exact ⟨kept, .inr (.inr (.publisher rfl same.symm rfl))⟩
      next => exact ⟨kept, .inr (.inl ⟨_, rfl⟩)⟩
    next =>
      obtain ⟨joined, subscriber, accepted⟩ : ∃ joined subscriber,
          relay.subscribe after.connection.streamKey = (joined, subscriber) := ⟨_, _, rfl⟩
      obtain ⟨rfl, _⟩ := Relay.subscribe_eq accepted
      rw [accepted]
      exact ⟨kept, .inr (.inr (.player rfl same.symm rfl))⟩
    next => exact ⟨kept, .inr (.inl ⟨_, rfl⟩)⟩

theorem Registered.serving (registered : Registered session) :
    Serving session.endpoint.connection.streamKey session := by
  cases registered with
  | publisher role phase named =>
    refine ⟨.inl (by rw [role, Role.key?, named]), by rw [phase]; rfl, ?_⟩
    intro subscriber isReading same
    rw [role] at same
    cases same
  | player role phase named =>
    refine ⟨.inl (by rw [role, Role.key?, named]), by rw [phase]; rfl, ?_⟩
    intro _ _ _ closed
    rw [phase] at closed
    cases closed

theorem Registered.phase (registered : Registered session) (consistent : session.endpoint.connection.Consistent) :
    session.endpoint.connection.phase = .publishing ∧ session.endpoint.connection.isPublish = true ∨
      session.endpoint.connection.phase = .playing ∧ session.endpoint.connection.isPublish = false := by
  cases registered with
  | publisher role phase named => exact .inl ⟨phase, consistent.mpr phase⟩
  | player role phase named =>
    refine .inr ⟨phase, Bool.eq_false_iff.mpr fun publishes => ?_⟩
    rw [consistent.mp publishes] at phase
    cases phase

end Steps

/-- What holds of every session, before and after it is registered. -/
structure Sound (session : Session) : Prop where
  negotiating : session.role = .negotiating → session.endpoint.connection.Consistent
  serving : ∀ key, session.role.key? = some key → Serving key session

theorem Serving.sound {key : String} {session : Session} (serving : Serving key session) : Sound session := by
  refine ⟨fun role => ?_, fun other named => serving.key_eq named ▸ serving⟩
  rcases serving.role with still | ⟨result, finished⟩
  · rw [role] at still
    cases still
  · rw [role] at finished
    cases finished

theorem Sound.step {session : Session} (sound : Sound session) (random : Bytes) (first : Source) (relay : Relay) :
    Sound (session.step random first relay).1 := by
  have continues : ∀ key, session.role.key? = some key → Sound (session.step random first relay).1 :=
    fun key named => (step_continues random first (sound.serving key named) relay).serving.sound
  cases role : session.role with
  | finished result =>
    have stays : session.step random first relay = (session, relay, .waiting) := by
      rw [Session.step, role]
    rw [stays]
    exact sound
  | publisher claim => exact continues claim.key (by rw [role, Role.key?])
  | player subscriber isReading => exact continues subscriber.key (by rw [role, Role.key?])
  | negotiating =>
    obtain ⟨consistent, reached⟩ := step_registers random first relay role (sound.negotiating role)
    rcases reached with still | ⟨result, finished⟩ | registered
    · refine ⟨fun _ => consistent, fun key named => ?_⟩
      rw [still] at named
      cases named
    · refine ⟨fun _ => consistent, fun key named => ?_⟩
      rw [finished] at named
      cases named
    · exact registered.serving.sound

theorem Onward.sound {settings : ConnectionSettings} {session : Session} (onward : Onward (.new settings) session) :
    Sound session := by
  induction onward with
  | refl =>
    exact ⟨fun _ => ⟨fun publishes => (nomatch publishes), fun same => (nomatch same)⟩, fun _ named => (nomatch named)⟩
  | feed onward bytes ih | close onward ih =>
    exact ⟨ih.negotiating, fun key named => (ih.serving key named).heard ⟨.refl _, (List.append_nil _).symm⟩⟩
  | step onward random first relay ih => exact ih.step random first relay

/-- From its registration to its end, whatever the client sends: a session takes part in the relay under one key or not
at all, a stream that was closed stays closed, and as long as nothing more is said about the role, the connection stays
what it was registered for, under the same key. -/
theorem role_stands_without_requests {settings : ConnectionSettings} {before start middle later : Session}
    {random : Bytes} {first : Source} {relay : Relay} {key : String} (run : Onward (.new settings) before)
    (negotiating : before.role = .negotiating) (registers : (before.step random first relay).1 = start)
    (registered : start.role.key? = some key) (since : Onward start middle) (further : Onward middle later) :
    (start.endpoint.connection.phase = .publishing ∧ start.endpoint.connection.isPublish = true ∨
      start.endpoint.connection.phase = .playing ∧ start.endpoint.connection.isPublish = false) ∧
    start.endpoint.connection.streamKey = key ∧
    (later.role.key? = some key ∨ ∃ result, later.role = .finished result) ∧
    later.endpoint.connection.phase ∈ [Phase.publishing, .playing, .closed] ∧
    (middle.endpoint.connection.phase = .closed → later.endpoint.connection.phase = .closed) ∧
    (later.endpoint.negotiations = start.endpoint.negotiations →
      (later.endpoint.connection.phase = middle.endpoint.connection.phase ∨
        later.endpoint.connection.phase = .closed) ∧
      later.endpoint.connection.isPublish = start.endpoint.connection.isPublish ∧
      later.endpoint.connection.streamKey = key) := by
  obtain ⟨consistent, reached⟩ :=
    step_registers random first relay negotiating (run.sound.negotiating negotiating)
  rw [registers] at consistent reached
  have role : Registered start := by
    rcases reached with still | ⟨result, finished⟩ | role
    · rw [still] at registered
      cases registered
    · rw [finished] at registered
      cases registered
    · exact role
  have serving := role.serving
  have named : start.endpoint.connection.streamKey = key := (serving.key_eq registered).symm
  rw [named] at serving
  have before := since.continues serving
  have after := further.continues before.serving
  refine ⟨role.phase consistent, named, after.serving.role, ?_, after.closed, fun same => ?_⟩
  · have settled := after.serving.settled
    cases phase : later.endpoint.connection.phase with
    | handshaking | readingHeader =>
      rw [phase] at settled
      cases settled
    | publishing | playing | closed => simp
  · have stands := (before.abides.trans after.abides).stands same
    have unasked := same.trans (before.abides.unasked after.abides same).symm
    exact ⟨(after.abides.stands unasked).phase, stands.isPublish, stands.streamKey.trans named⟩

/-- A handshake with zeros for the random bytes, and the request to publish "cam" without an application. -/
def publishes : Bytes :=
  protocolVersion :: List.replicate (2 * Handshake.helloSize) 0 ++
    [0x03, 0, 0, 0, 0, 0, 0x1a, 0x14, 1, 0, 0, 0,
      0x02, 0, 7, 0x70, 0x75, 0x62, 0x6c, 0x69, 0x73, 0x68, 0x00, 0x40, 0x14, 0, 0, 0, 0, 0, 0,
      0x05, 0x02, 0, 3, 0x63, 0x61, 0x6d]

/-- The request to play "other". -/
def plays : Bytes :=
  [0x03, 0, 0, 0, 0, 0, 0x19, 0x14, 1, 0, 0, 0,
    0x02, 0, 4, 0x70, 0x6c, 0x61, 0x79, 0x00, 0x40, 0x10, 0, 0, 0, 0, 0, 0,
    0x05, 0x02, 0, 5, 0x6f, 0x74, 0x68, 0x65, 0x72]

/-- A packet of sound. -/
def sounds : Bytes :=
  [0x04, 0, 0, 0, 0, 0, 2, 0x08, 1, 0, 0, 0, 0xaf, 1]

/-- A step with what has come in, on a relay of its own. -/
def stepWith (session : Session) (bytes : Bytes) : Session :=
  ({ session with endpoint := session.endpoint.feed bytes }.step
    (List.replicate Handshake.randomSize 0) .queue (.new 16)).1

def publisher : Session :=
  (Session.new .standard).stepWith publishes

theorem Onward.stepWith (session : Session) (bytes : Bytes) : Onward session (session.stepWith bytes) :=
  (Onward.refl.feed bytes).step _ _ _

theorem publisher_registered :
    publisher.role.key? = some "/cam" ∧ publisher.endpoint.connection.phase = .publishing ∧
      publisher.endpoint.connection.streamKey = "/cam" := by
  decide +kernel

/-- Sound is no request. -/
theorem publisher_stands :
    (publisher.stepWith sounds).endpoint.connection.phase = .publishing ∧
      (publisher.stepWith sounds).endpoint.connection.streamKey = "/cam" := by
  obtain ⟨named, phase, _⟩ := publisher_registered
  have unasked : (publisher.stepWith sounds).endpoint.negotiations = publisher.endpoint.negotiations ∧
      (publisher.stepWith sounds).endpoint.connection.phase ≠ .closed := by
    decide +kernel
  let greeted : Session := { Session.new .standard with endpoint := (Endpoint.new .standard).feed publishes }
  have registers : (greeted.step (List.replicate Handshake.randomSize 0) .queue (.new 16)).1 = publisher := rfl
  have run : Onward (.new .standard) greeted := Onward.refl.feed publishes
  obtain ⟨_, _, _, _, _, stands⟩ :=
    role_stands_without_requests run rfl registers named .refl (.stepWith publisher sounds)
  obtain ⟨same, _, key⟩ := stands unasked.1
  exact ⟨(same.resolve_right unasked.2).trans phase, key⟩

/-- The relay goes on to know it as the publisher of "cam". -/
theorem second_request_turns_publisher :
    Onward (.new .standard) publisher ∧
      (publisher.role.key? = some "/cam" ∧ publisher.endpoint.connection.phase = .publishing ∧
        publisher.endpoint.connection.streamKey = "/cam") ∧
      (publisher.stepWith plays).role.key? = some "/cam" ∧
      (publisher.stepWith plays).endpoint.connection.phase = .playing ∧
      (publisher.stepWith plays).endpoint.connection.isPublish = true ∧
      (publisher.stepWith plays).endpoint.connection.streamKey = "/other" :=
  ⟨.stepWith _ publishes, publisher_registered, by decide +kernel⟩

end Session
end RtmpRelay
