import RtmpRelay.Proofs.Delivery

/-! Clients whose calls overlap. Subscribing takes the locks twice: in its first section a call finds the stream of its
key, or creates it, and in its second it joins that stream. Every other operation is a single section. What other
clients do in the gap can leave the stream without anybody, and then it is given up, for a call that was invited to it
does not count as using it. The call still ends with a subscriber, but the registry does not know it, and no later
publisher reaches it. The invariant is that of the registry without its account of the sinks, which such a subscriber
breaks. -/

namespace RtmpRelay.Relay

/-- What a client has done in one section. Calls that subscribe have numbers, for several of them can be invited to the
same stream at the same time. -/
inductive Section where
  | single (operation : Operation)
  | invited (call : Nat) (invitation : Invitation)
  | accepted (call : Nat) (subscriber : Subscriber)

namespace Section

/-- The operation that ends with this section. -/
def operation? : Section → Option Operation
  | .single operation => some operation
  | .invited _ _ => none
  | .accepted _ subscriber => some (.subscribed subscriber)

/-- Whether a publisher of the key leaves. -/
def departs (key : String) (part : Section) : Bool :=
  part.operation?.any (·.departs key)

/-- The number of a subscriber that leaves. -/
def leaver? : Section → Option Nat
  | .single (.unsubscribed subscriber) => some subscriber.id
  | _ => none

end Section

/-- The latest section comes first. -/
abbrev Schedule := List Section

namespace Schedule

def history (schedule : Schedule) : History :=
  schedule.filterMap Section.operation?

/-- The stream to which a call has been invited, until it is accepted. -/
def invitation? (call : Nat) : Schedule → Option Invitation
  | [] => none
  | .invited other invitation :: earlier => if other = call then some invitation else invitation? call earlier
  | .accepted other _ :: earlier => if other = call then none else invitation? call earlier
  | .single _ :: earlier => invitation? call earlier

/-- Any call can have the next section. -/
inductive Step (schedule : Schedule) : Relay → Section → Relay → Prop where
  | single {relay operation after} (next : Relay.Step schedule.history relay operation after)
      (whole : operation.newSubscriber? = none) : Step schedule relay (.single operation) after
  | invite {relay key after invitation call} (fresh : ∀ earlier, .invited call earlier ∉ schedule)
      (found : relay.invite key = (after, invitation)) : Step schedule relay (.invited call invitation) after
  | accept {relay call invitation after subscriber} (invited : schedule.invitation? call = some invitation)
      (joined : relay.accept invitation = (after, subscriber)) : Step schedule relay (.accepted call subscriber) after

/-- What can become of a new relay, one section after another, by any clients on any keys. -/
inductive Run (capacity : Nat) : Schedule → Relay → Prop where
  | new : Run capacity [] (.new capacity)
  | step {schedule relay part after} (run : Run capacity schedule relay) (next : Step schedule relay part after) :
      Run capacity (part :: schedule) after

end Schedule

/-- The stream to which somebody was invited is still there. -/
def Stands (relay : Relay) (invitation : Invitation) : Prop :=
  ∃ stream, relay.stream? invitation.key = some stream ∧ stream.serial = invitation.serial

theorem invite_eq {relay after : Relay} {key : String} {invitation : Invitation}
    (found : relay.invite key = (after, invitation)) :
    invitation = ⟨key, (relay.opened key).serial⟩ ∧ after.stream? key = some (relay.opened key) ∧
      (∀ other, other ≠ key → after.stream? other = relay.stream? other) ∧
      (relay.streams.Ascending → after.streams.Ascending) ∧ after.nextId = relay.nextId ∧
      after.queues = relay.queues ∧ relay.nextSerial ≤ after.nextSerial ∧
      (relay.stream? key = none → relay.nextSerial < after.nextSerial) := by
  cases there : relay.stream? key with
  | some stream =>
    simp only [invite, openStream, there] at found
    cases found
    rw [opened_of_some there]
    exact ⟨rfl, there, fun _ _ => rfl, id, rfl, rfl, Nat.le_refl _, fun absent => by cases absent⟩
  | none =>
    simp only [invite, openStream, there] at found
    cases found
    rw [opened_of_none there]
    refine ⟨rfl, stream?_setStream_self relay key _, ?_, ?_, rfl, rfl, Nat.le_succ _, fun _ => Nat.lt_succ_self _⟩
    · exact fun other different => stream?_setStream_of_ne relay different _
    · exact fun ascending => ascending.insert key _

theorem accept_of_stands {relay after : Relay} {invitation : Invitation} {subscriber : Subscriber}
    (stands : Stands relay invitation) (accepted : relay.accept invitation = (after, subscriber)) :
    subscriber = ⟨invitation.key, relay.nextId⟩ ∧ after.nextId = relay.nextId + 1 ∧
      (∃ queue, after.queues = relay.queues.insert relay.nextId queue) ∧
      Changes relay after invitation.key { relay.opened invitation.key with
        sinks := (relay.opened invitation.key).sinks ++ [relay.nextId] } := by
  obtain ⟨key, number⟩ := invitation
  obtain ⟨stream, there, (rfl : stream.serial = number)⟩ := stands
  simp only [accept, there, if_true] at accepted
  cases accepted
  let joined : LiveStream := { stream with sinks := stream.sinks ++ [relay.nextId] }
  have used : joined.isUnused = false := by simp [joined, LiveStream.isUnused]
  have changes : Changes relay (relay.setStream key joined) key joined :=
    changes_setStream there rfl used
  rw [opened_of_some there]
  exact ⟨rfl, rfl, ⟨_, rfl⟩, changes.of_streams rfl rfl rfl⟩

theorem accept_of_not_stands {relay after : Relay} {invitation : Invitation} {subscriber : Subscriber}
    (fallen : ¬ Stands relay invitation) (accepted : relay.accept invitation = (after, subscriber)) :
    subscriber = ⟨invitation.key, relay.nextId⟩ ∧
      after = { relay with
        nextId := relay.nextId + 1, queues := relay.queues.insert relay.nextId (.ofList []) } := by
  cases there : relay.stream? invitation.key with
  | some stream =>
    have other : stream.serial ≠ invitation.serial := fun serial => fallen ⟨stream, there, serial⟩
    simp only [accept, there, other, if_false] at accepted
    cases accepted
    exact ⟨rfl, rfl⟩
  | none =>
    simp only [accept, there] at accepted
    cases accepted
    exact ⟨rfl, rfl⟩

/-- What the registry has to do with the handles that are held, also when calls overlap. -/
structure Sound (history : History) (relay : Relay) : Prop where
  ascending : relay.streams.Ascending
  handles : Handles history relay.nextId
  claimed : ∀ claim ∈ history.publishers, ∃ stream,
    relay.stream? claim.key = some stream ∧ stream.serial = claim.serial ∧ stream.publisher = some claim.id
  numbered : ∀ key stream, relay.stream? key = some stream → stream.serial < relay.nextSerial
  distinct : ∀ key stream, relay.stream? key = some stream → stream.sinks.Nodup
  sinks : ∀ key stream, relay.stream? key = some stream → ∀ id ∈ stream.sinks, id < relay.nextId

/-- What can happen to the streams in one section. -/
inductive Effect (history : History) (before after : Relay) : Section → Prop where
  | publish {key} (free : (before.opened key).publisher = none) (nextId : after.nextId = before.nextId + 1)
      (changes : Changes before after key { before.opened key with publisher := some before.nextId }) :
      Effect history before after (.single (.published ⟨key, before.nextId, (before.opened key).serial⟩))
  | send {claim packet stream} (held : claim ∈ history.publishers) (nextId : after.nextId = before.nextId)
      (there : before.stream? claim.key = some stream) (publishes : stream.publisher = some claim.id)
      (changes : Changes before after claim.key (stream.keep packet)) :
      Effect history before after (.single (.sent claim packet))
  | depart {claim stream} (held : claim ∈ history.publishers) (nextId : after.nextId = before.nextId)
      (there : before.stream? claim.key = some stream) (changes : Changes before after claim.key stream.vacate) :
      Effect history before after (.single (.unpublished claim))
  | leave {subscriber} (held : subscriber ∈ history.subscribers) (nextId : after.nextId = before.nextId)
      (changes : Changes before after subscriber.key { before.opened subscriber.key with
        sinks := (before.opened subscriber.key).sinks.filter (· ≠ subscriber.id) }) :
      Effect history before after (.single (.unsubscribed subscriber))
  | invite {call key} (nextId : after.nextId = before.nextId) (nextSerial : before.nextSerial ≤ after.nextSerial)
      (created : before.stream? key = none → before.nextSerial < after.nextSerial)
      (ascending : before.streams.Ascending → after.streams.Ascending)
      (here : after.stream? key = some (before.opened key))
      (elsewhere : ∀ other, other ≠ key → after.stream? other = before.stream? other) :
      Effect history before after (.invited call ⟨key, (before.opened key).serial⟩)
  | join {call key} (nextId : after.nextId = before.nextId + 1)
      (changes : Changes before after key
        { before.opened key with sinks := (before.opened key).sinks ++ [before.nextId] }) :
      Effect history before after (.accepted call ⟨key, before.nextId⟩)
  | miss {call key} (nextId : after.nextId = before.nextId + 1) (nextSerial : after.nextSerial = before.nextSerial)
      (streams : after.streams = before.streams) : Effect history before after (.accepted call ⟨key, before.nextId⟩)
  | refuse {key} (nextId : after.nextId = before.nextId) (nextSerial : after.nextSerial = before.nextSerial)
      (streams : after.streams = before.streams) : Effect history before after (.single (.refused key))
  | receive {subscriber delivery} (held : subscriber ∈ history.subscribers) (nextId : after.nextId = before.nextId)
      (nextSerial : after.nextSerial = before.nextSerial) (streams : after.streams = before.streams) :
      Effect history before after (.single (.received subscriber delivery))

theorem Schedule.Step.effect {schedule : Schedule} {relay after : Relay} {part : Section}
    (sound : Sound schedule.history relay) (next : Schedule.Step schedule relay part after) :
    Effect schedule.history relay after part := by
  cases next with
  | single next whole =>
    cases next with
    | publish given =>
      obtain ⟨free, rfl, nextId, _, changes⟩ := publish_ok given
      exact .publish free nextId changes
    | refuse => exact .refuse rfl rfl rfl
    | subscribe => cases whole
    | @send claim held packet =>
      obtain ⟨stream, there, serial, publishes⟩ := sound.claimed claim held
      have used : stream.isUnused = false := by simp [LiveStream.isUnused, publishes]
      obtain ⟨nextId, changes⟩ := send_changes there serial used packet
      exact .send held nextId there publishes changes
    | @receive subscriber _ delivery held taken =>
      obtain ⟨queues, eq⟩ := relay.receive_eq subscriber
      rw [taken] at eq
      subst eq
      exact .receive held rfl rfl rfl
    | @unpublish claim held =>
      obtain ⟨stream, there, _, publishes⟩ := sound.claimed claim held
      obtain ⟨nextId, _, changes⟩ := dropPublisher_changes sound.ascending there publishes
      exact .depart held nextId there changes
    | @unsubscribe subscriber held =>
      obtain ⟨nextId, _, changes⟩ := dropSubscriber_changes sound.ascending subscriber
      exact .leave held nextId changes
  | invite fresh found =>
    obtain ⟨rfl, here, elsewhere, ascending, nextId, _, nextSerial, created⟩ := invite_eq found
    exact .invite nextId nextSerial created ascending here elsewhere
  | @accept call invitation _ subscriber _ accepted =>
    by_cases stands : Stands relay invitation
    · obtain ⟨rfl, nextId, _, changes⟩ := accept_of_stands stands accepted
      exact .join nextId changes
    · obtain ⟨rfl, rfl⟩ := accept_of_not_stands stands accepted
      exact .miss rfl rfl rfl

/-- A stream that goes on in one section keeps its publisher and all sinks but that of a subscriber that leaves. -/
structure Continues (part : Section) (stream kept : LiveStream) : Prop where
  serial : kept.serial = stream.serial
  publisher : ∀ id, stream.publisher = some id → kept.publisher = some id
  sinks : ∀ id ∈ stream.sinks, part.leaver? ≠ some id → id ∈ kept.sinks

theorem Continues.refl (part : Section) (stream : LiveStream) : Continues part stream stream :=
  ⟨rfl, fun _ publishes => publishes, fun _ member _ => member⟩

/-- Where a stream comes from that is there after a section. -/
structure Descends (before after : Relay) (key : String) (stream : LiveStream) : Prop where
  serial : stream.serial = (before.opened key).serial
  numbered : before.stream? key = none → stream.serial < after.nextSerial
  sinks : stream.sinks.Sublist (before.opened key).sinks ∨
    stream.sinks = (before.opened key).sinks ++ [before.nextId] ∧ before.nextId < after.nextId

theorem Descends.of_same {before after : Relay} {key : String} {stream : LiveStream}
    (there : before.stream? key = some stream) : Descends before after key stream := by
  refine ⟨?_, ?_, ?_⟩
  · rw [opened_of_some there]
  · intro absent
    rw [there] at absent
    cases absent
  · rw [opened_of_some there]
    exact .inl (List.Sublist.refl _)

section
variable {history : History} {before after : Relay} {part : Section} {key other : String} {stream changed : LiveStream}

theorem Changes.continues (changes : Changes before after other changed) (there : before.stream? key = some stream)
    (used : key = other → changed.isUnused = false) (fits : key = other → Continues part stream changed) :
    ∃ kept, after.stream? key = some kept ∧ Continues part stream kept := by
  by_cases same : key = other
  · subst same
    exact ⟨changed, changes.here.trans (LiveStream.settled_of_used (used rfl)), fits rfl⟩
  · exact ⟨stream, (changes.elsewhere key same).trans there, .refl part stream⟩

theorem Changes.descends (changes : Changes before after other changed) (there : after.stream? key = some stream)
    (sinks : changed.sinks.Sublist (before.opened other).sinks ∨
      changed.sinks = (before.opened other).sinks ++ [before.nextId] ∧ before.nextId < after.nextId) :
    Descends before after key stream := by
  by_cases same : key = other
  · subst same
    obtain ⟨used, rfl⟩ := LiveStream.settled_eq_some_iff.mp (changes.here ▸ there)
    exact ⟨changes.serial, changes.numbered used, sinks⟩
  · exact .of_same ((changes.elsewhere key same).symm.trans there)

theorem Effect.nextId_le (effect : Effect history before after part) : before.nextId ≤ after.nextId := by
  cases effect <;> omega

theorem Effect.nextSerial_le (effect : Effect history before after part) : before.nextSerial ≤ after.nextSerial := by
  cases effect with
  | publish _ _ changes | send _ _ _ _ changes | depart _ _ _ changes | leave _ _ changes | join _ changes =>
    exact changes.nextSerial
  | invite _ nextSerial => exact nextSerial
  | miss _ nextSerial | refuse _ nextSerial | receive _ _ nextSerial => exact Nat.le_of_eq nextSerial.symm

theorem Effect.ascending (effect : Effect history before after part) (ascending : before.streams.Ascending) :
    after.streams.Ascending := by
  cases effect with
  | publish _ _ changes | send _ _ _ _ changes | depart _ _ _ changes | leave _ _ changes | join _ changes =>
    exact changes.ascending ascending
  | invite _ _ _ preserved => exact preserved ascending
  | miss _ _ streams | refuse _ _ streams | receive _ _ _ streams => exact streams ▸ ascending

/-- A stream goes on as long as its publisher does not leave, unless a subscriber of its key leaves and nobody else is
there. -/
theorem Effect.continues (effect : Effect history before after part) (there : before.stream? key = some stream)
    (remains : part.departs key = false) :
    (∃ kept, after.stream? key = some kept ∧ Continues part stream kept) ∨
    (∃ subscriber, part = .single (.unsubscribed subscriber) ∧ subscriber.key = key ∧ after.stream? key = none ∧
      stream.publisher = none ∧ ∀ id ∈ stream.sinks, id = subscriber.id) := by
  cases effect with
  | @publish other free _ changes =>
    refine .inl (changes.continues there (fun _ => rfl) ?_)
    rintro rfl
    rw [opened_of_some there] at free ⊢
    refine ⟨rfl, fun id publishes => ?_, fun _ member _ => member⟩
    rw [free] at publishes
    cases publishes
  | @send claim packet sender _ _ present publishes changes =>
    obtain ⟨serial, publisher, sinks⟩ := sender.keep_members packet
    refine .inl (changes.continues there ?_ ?_)
    · rintro rfl
      simp [LiveStream.isUnused, publisher, publishes]
    · rintro rfl
      obtain rfl := Option.some.inj (there.symm.trans present)
      exact ⟨serial, fun id kept => publisher.trans kept, fun id member _ => sinks ▸ member⟩
  | @depart claim left _ _ _ changes =>
    have elsewhere : key ≠ claim.key := by
      rintro rfl
      simp [Section.departs, Section.operation?, Operation.departs] at remains
    exact .inl ⟨stream, (changes.elsewhere key elsewhere).trans there, .refl _ stream⟩
  | @leave subscriber _ _ changes =>
    by_cases same : key = subscriber.key
    · subst same
      rw [opened_of_some there] at changes
      cases unused : LiveStream.isUnused { stream with sinks := stream.sinks.filter (· ≠ subscriber.id) } with
      | false =>
        refine .inl ⟨_, changes.here.trans (LiveStream.settled_of_used unused), rfl, fun _ publishes => publishes, ?_⟩
        intro id member stays
        have different : id ≠ subscriber.id := by
          rintro rfl
          exact stays rfl
        exact List.mem_filter.mpr ⟨member, by simpa using different⟩
      | true =>
        obtain ⟨free, alone⟩ := LiveStream.isUnused_iff.mp unused
        refine .inr ⟨subscriber, rfl, rfl, by rw [changes.here, LiveStream.settled, if_pos unused], free, ?_⟩
        intro id member
        simpa using List.filter_eq_nil_iff.mp alone id member
    · exact .inl ⟨stream, (changes.elsewhere key same).trans there, .refl _ stream⟩
  | @invite call other _ _ _ _ here elsewhere =>
    refine .inl ⟨stream, ?_, .refl _ stream⟩
    by_cases same : key = other
    · subst same
      rw [here, opened_of_some there]
    · exact (elsewhere key same).trans there
  | @join call other _ changes =>
    refine .inl (changes.continues there (fun _ => by simp [LiveStream.isUnused]) ?_)
    rintro rfl
    rw [opened_of_some there]
    exact ⟨rfl, fun _ publishes => publishes, fun _ member _ => List.mem_append_left _ member⟩
  | miss _ _ streams | refuse _ _ streams | receive _ _ _ streams =>
    exact .inl ⟨stream, (congrArg (·.find? key) streams).trans there, .refl _ stream⟩

theorem Effect.descends (effect : Effect history before after part) (there : after.stream? key = some stream) :
    Descends before after key stream := by
  cases effect with
  | publish _ _ changes => exact changes.descends there (.inl (List.Sublist.refl _))
  | @send claim packet sender _ _ present _ changes =>
    refine changes.descends there (.inl ?_)
    rw [(sender.keep_members packet).2.2, opened_of_some present]
  | depart _ _ _ changes => exact changes.descends there (.inl (List.nil_sublist _))
  | leave _ _ changes => exact changes.descends there (.inl List.filter_sublist)
  | @invite call other nextId _ created _ here elsewhere =>
    by_cases same : key = other
    · subst same
      obtain rfl := Option.some.inj (here.symm.trans there)
      refine ⟨rfl, fun absent => ?_, .inl (List.Sublist.refl _)⟩
      rw [opened_of_none absent]
      exact created absent
    · exact .of_same ((elsewhere key same).symm.trans there)
  | @join call other nextId changes =>
    exact changes.descends there (.inr ⟨rfl, by omega⟩)
  | miss _ _ streams | refuse _ _ streams | receive _ _ _ streams =>
    exact .of_same ((congrArg (·.find? key) streams).symm.trans there)

end

namespace Sound
variable {history : History} {relay after : Relay} {part : Section}

theorem new (capacity : Nat) : Sound [] (Relay.new capacity) where
  ascending := .nil
  handles := ⟨Nat.one_pos, fun _ member => (nomatch member), List.nodup_nil, List.nodup_nil⟩
  claimed := fun _ member => (nomatch member)
  numbered := fun _ _ there => (nomatch there)
  distinct := fun _ _ there => (nomatch there)
  sinks := fun _ _ there => (nomatch there)

theorem opened_sinks (sound : Sound history relay) (key : String) :
    (relay.opened key).sinks.Nodup ∧ ∀ id ∈ (relay.opened key).sinks, id < relay.nextId := by
  cases there : relay.stream? key with
  | some stream =>
    rw [opened_of_some there]
    exact ⟨sound.distinct key stream there, sound.sinks key stream there⟩
  | none =>
    rw [opened_of_none there]
    exact ⟨List.nodup_nil, fun _ member => by cases member⟩

/-- Streams that come from those of before have their numbers and sinks in order again. -/
theorem sinks_of_descends (sound : Sound history relay) {key : String} {stream : LiveStream}
    (grows : relay.nextId ≤ after.nextId) (descends : Descends relay after key stream) :
    stream.sinks.Nodup ∧ ∀ id ∈ stream.sinks, id < after.nextId := by
  obtain ⟨distinct, bounded⟩ := sound.opened_sinks key
  rcases descends.sinks with fewer | ⟨same, further⟩
  · exact ⟨distinct.sublist fewer, fun id member => Nat.lt_of_lt_of_le (bounded id (fewer.subset member)) grows⟩
  · rw [same]
    refine ⟨?_, ?_⟩
    · rw [List.nodup_append]
      refine ⟨distinct, List.nodup_singleton _, fun id member other single => ?_⟩
      have less := bounded id member
      have equal := List.mem_singleton.mp single
      omega
    · intro id member
      rcases List.mem_append.mp member with older | newest
      · exact Nat.lt_of_lt_of_le (bounded id older) grows
      · exact List.mem_singleton.mp newest ▸ further

theorem claimed_of_effect (sound : Sound history relay) (effect : Effect history relay after part) {claim : Publisher}
    (held : claim ∈ history.publishers) (remains : part.departs claim.key = false) :
    ∃ stream, after.stream? claim.key = some stream ∧ stream.serial = claim.serial ∧
      stream.publisher = some claim.id := by
  obtain ⟨stream, there, serial, publishes⟩ := sound.claimed claim held
  rcases effect.continues there remains with ⟨kept, still, continues⟩ | ⟨_, _, _, _, free, _⟩
  · exact ⟨kept, still, continues.serial.trans serial, continues.publisher claim.id publishes⟩
  · rw [publishes] at free
    cases free

theorem claim?_eq_none (sound : Sound history relay) {key : String} (free : (relay.opened key).publisher = none) :
    history.claim? key = none := by
  refine List.find?_eq_none.mpr fun claim held same => ?_
  obtain rfl : claim.key = key := by simpa using same
  obtain ⟨stream, there, _, publishes⟩ := sound.claimed claim held
  rw [opened_of_some there, publishes] at free
  cases free

theorem handles_of_effect (sound : Sound history relay) (effect : Effect history relay after part) :
    Handles (part.operation?.toList ++ history) after.nextId := by
  have handles := sound.handles
  cases effect with
  | publish free nextId => exact nextId ▸ handles.publish rfl (sound.claim?_eq_none free)
  | @send claim _ _ held nextId =>
    have numbered : claim.id < relay.nextId := handles.numbered _ (History.published_of_mem held)
    exact nextId ▸ handles.use numbered rfl rfl
  | depart held nextId => exact nextId ▸ handles.unpublish held
  | leave held nextId => exact nextId ▸ handles.unsubscribe held
  | invite nextId => exact nextId ▸ handles
  | join nextId | miss nextId => exact nextId ▸ handles.subscribe rfl
  | refuse nextId => exact nextId ▸ handles.use handles.positive rfl rfl
  | @receive subscriber _ held nextId =>
    have numbered : subscriber.id < relay.nextId := handles.numbered _ (History.subscribed_of_mem held)
    exact nextId ▸ handles.use numbered rfl rfl

theorem step (sound : Sound history relay) (effect : Effect history relay after part) :
    Sound (part.operation?.toList ++ history) after := by
  have descends : ∀ key stream, after.stream? key = some stream → Descends relay after key stream :=
    fun _ _ there => effect.descends there
  refine ⟨effect.ascending sound.ascending, sound.handles_of_effect effect, ?_, ?_, ?_, ?_⟩
  · have kept : ∀ claim ∈ history.publishers, part.departs claim.key = false → ∃ stream,
        after.stream? claim.key = some stream ∧ stream.serial = claim.serial ∧ stream.publisher = some claim.id :=
      fun _ held remains => sound.claimed_of_effect effect held remains
    intro claim held
    cases effect with
    | @publish key free _ changes =>
      rcases List.mem_cons.mp held with rfl | earlier
      · exact ⟨_, changes.here.trans (LiveStream.settled_of_used rfl), rfl, rfl⟩
      · exact kept claim earlier rfl
    | @depart other stream left =>
      obtain ⟨earlier, different⟩ := List.mem_filter.mp held
      refine kept claim earlier ?_
      have elsewhere : other.key ≠ claim.key := by
        intro same
        have equal := List.inj_on_of_nodup_map sound.handles.publishers left earlier same
        simp [equal] at different
      simpa [Section.departs, Section.operation?, Operation.departs] using elsewhere
    | send | leave | invite | join | miss | refuse | receive => exact kept claim held rfl
  · intro key stream there
    have source := descends key stream there
    cases before : relay.stream? key with
    | some stood =>
      rw [source.serial, opened_of_some before]
      exact Nat.lt_of_lt_of_le (sound.numbered key stood before) effect.nextSerial_le
    | none => exact source.numbered before
  · exact fun key stream there => (sound.sinks_of_descends effect.nextId_le (descends key stream there)).1
  · exact fun key stream there => (sound.sinks_of_descends effect.nextId_le (descends key stream there)).2

end Sound

namespace Schedule
variable {capacity : Nat} {schedule : Schedule} {relay after : Relay} {part : Section}

theorem history_cons (part : Section) (schedule : Schedule) :
    history (part :: schedule) = part.operation?.toList ++ schedule.history := by
  rw [history, List.filterMap_cons]
  cases part.operation? <;> rfl

theorem Run.sound (run : Run capacity schedule relay) : Sound schedule.history relay := by
  induction run with
  | new => exact .new capacity
  | step run next ih => exact history_cons _ _ ▸ ih.step (next.effect ih)

theorem Step.unique {first second : Relay} (one : Step schedule relay part first)
    (two : Step schedule relay part second) : first = second := by
  cases one with
  | single one whole =>
    cases two with
    | single two =>
      cases one with
      | publish given =>
        cases two with
        | publish again =>
          obtain ⟨_, rfl, _⟩ := publish_ok given
          obtain ⟨_, same, _⟩ := publish_ok again
          cases same
          cases given.symm.trans again
          rfl
      | subscribe => cases whole
      | receive _ taken =>
        cases two with
        | receive _ again => exact congrArg Prod.fst (taken.symm.trans again)
      | refuse | send | unpublish | unsubscribe =>
        cases two
        rfl
  | invite _ found =>
    cases two with
    | invite _ again =>
      obtain ⟨rfl, _⟩ := invite_eq found
      obtain ⟨same, _⟩ := invite_eq again
      cases same
      exact congrArg Prod.fst (found.symm.trans again)
  | accept invited joined =>
    cases two with
    | accept also again =>
      cases invited.symm.trans also
      exact congrArg Prod.fst (joined.symm.trans again)

theorem Run.unique {first second : Relay} (one : Run capacity schedule first) (two : Run capacity schedule second) :
    first = second := by
  induction one generalizing second with
  | new =>
    cases two
    rfl
  | step run next ih =>
    cases two with
    | step again other =>
      obtain rfl := ih again
      exact next.unique other

end Schedule

theorem Run.scheduled {capacity : Nat} {history : History} {relay : Relay} (run : Run capacity history relay) :
    ∃ schedule, Schedule.Run capacity schedule relay ∧ schedule.history = history ∧
      ∀ call invitation, .invited call invitation ∈ schedule → call < relay.nextId := by
  induction run with
  | new => exact ⟨[], .new, rfl, fun _ _ member => by cases member⟩
  | @step _ relay operation after _ next ih =>
    obtain ⟨schedule, before, rfl, calls⟩ := ih
    cases whole : operation.newSubscriber? with
    | none =>
      have single : Schedule.Step schedule relay (.single operation) after := .single next whole
      refine ⟨.single operation :: schedule, .step before single, rfl, fun call invitation member => ?_⟩
      have earlier := (List.mem_cons.mp member).resolve_left (by simp)
      exact Nat.lt_of_lt_of_le (calls call invitation earlier) (single.effect before.sound).nextId_le
    | some subscriber =>
      cases next with
      | @subscribe key _ _ accepted =>
        obtain ⟨_, nextId, _⟩ := subscribe_eq accepted
        have fresh : ∀ invitation, .invited relay.nextId invitation ∉ schedule :=
          fun invitation member => Nat.lt_irrefl _ (calls _ invitation member)
        have invited := Schedule.Run.step before (.invite fresh (rfl : relay.invite key = relay.invite key))
        refine ⟨_, .step invited (.accept (if_pos rfl) accepted), rfl, fun call invitation member => ?_⟩
        rcases List.mem_cons.mp member with impossible | earlier
        · cases impossible
        rcases List.mem_cons.mp earlier with same | old
        · cases same
          omega
        · have less := calls call invitation old
          omega
      | _ => cases whole

end RtmpRelay.Relay
