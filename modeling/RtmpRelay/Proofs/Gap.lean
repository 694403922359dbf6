import RtmpRelay.Proofs.Interleaving

/-! What becomes of a call to subscribe whose two sections are apart. As long as no publisher of its key leaves, the
stream to which it was invited is still there when it is accepted, unless a subscriber of the key left in the gap and
nobody else was there: then the registry has given the key free. A call that finds its stream joins it, and its
subscriber is reached until a publisher of the key leaves. A call that does not find it ends with a subscriber that
nobody can reach, although no publisher has left. -/

namespace RtmpRelay.Relay

namespace Schedule
variable {capacity : Nat} {schedule earlier between later : Schedule} {relay after : Relay} {part : Section}
  {call : Nat} {invitation : Invitation} {subscriber : Subscriber}

/-- In the gap between the two sections of a call a subscriber of the key left, and then the key was free. -/
def GivenUp (capacity : Nat) (key : String) (earlier between : Schedule) : Prop :=
  ∃ newer leaver older relay, between = newer ++ .single (.unsubscribed leaver) :: older ∧ leaver.key = key ∧
    Run capacity (.single (.unsubscribed leaver) :: (older ++ earlier)) relay ∧ relay.stream? key = none

theorem givenUp_cons_iff {key : String} : GivenUp capacity key earlier (part :: between) ↔
    GivenUp capacity key earlier between ∨ ∃ leaver relay, part = .single (.unsubscribed leaver) ∧ leaver.key = key ∧
      Run capacity (part :: (between ++ earlier)) relay ∧ relay.stream? key = none := by
  constructor
  · rintro ⟨newer, leaver, older, relay, split, same, run, free⟩
    cases newer with
    | nil =>
      obtain ⟨rfl, rfl⟩ := List.cons.inj split
      exact .inr ⟨leaver, relay, rfl, same, run, free⟩
    | cons first newer =>
      obtain ⟨rfl, rfl⟩ := List.cons.inj split
      exact .inl ⟨newer, leaver, older, relay, rfl, same, run, free⟩
  · rintro (⟨newer, leaver, older, relay, rfl, same, run, free⟩ | ⟨leaver, relay, rfl, same, run, free⟩)
    · exact ⟨part :: newer, leaver, older, relay, rfl, same, run, free⟩
    · exact ⟨[], leaver, between, relay, rfl, same, run, free⟩

/-- As long as no publisher leaves, the stream of an invitation is there exactly if it has not been given up. A later
stream under its key has another serial number. -/
theorem Run.stands_iff (run : Run capacity (between ++ .invited call invitation :: earlier) relay)
    (remains : ∀ part ∈ between, part.departs invitation.key = false) :
    invitation.serial < relay.nextSerial ∧
      (Stands relay invitation ↔ ¬ GivenUp capacity invitation.key (.invited call invitation :: earlier) between) := by
  induction between generalizing relay with
  | nil =>
    have sound := run.sound
    cases run with
    | step _ next =>
      cases next with
      | invite _ found =>
        obtain ⟨rfl, here, _⟩ := invite_eq found
        refine ⟨sound.numbered _ _ here, fun _ => ?_, fun _ => ⟨_, here, rfl⟩⟩
        rintro ⟨newer, _, _, _, split, _⟩
        cases newer <;> cases split
  | cons part between ih =>
    have whole := run
    cases run with
    | @step _ before _ _ run next =>
      obtain ⟨numbered, stands⟩ := ih run fun other member => remains other (List.mem_cons_of_mem _ member)
      have effect := next.effect run.sound
      refine ⟨Nat.lt_of_lt_of_le numbered effect.nextSerial_le, ?_⟩
      rw [givenUp_cons_iff, not_or, ← stands]
      constructor
      · rintro ⟨stream, there, serial⟩
        refine ⟨?_, ?_⟩
        · have descends := effect.descends there
          cases stood : before.stream? invitation.key with
          | some old => exact ⟨old, stood, by rw [← serial, descends.serial, opened_of_some stood]⟩
          | none =>
            have new := descends.serial
            rw [opened_of_none stood, serial] at new
            exact absurd new (Nat.ne_of_lt numbered)
        · rintro ⟨leaver, other, _, _, again, free⟩
          rw [← whole.unique again, there] at free
          cases free
      · rintro ⟨⟨stream, there, serial⟩, kept⟩
        rcases effect.continues there (remains part List.mem_cons_self) with
          ⟨still, present, continues⟩ | ⟨leaver, left, same, free, _⟩
        · exact ⟨still, present, continues.serial.trans serial⟩
        · exact absurd ⟨leaver, relay, left, same, whole, free⟩ kept

theorem Run.invitation?_eq (run : Run capacity (between ++ .invited call invitation :: earlier) relay)
    {other : Invitation}
    (found : invitation? call (between ++ .invited call invitation :: earlier) = some other) : other = invitation := by
  induction between generalizing relay with
  | nil => simpa [invitation?] using found.symm
  | cons part between ih =>
    cases run with
    | step run next =>
      cases next with
      | single => exact ih run found
      | invite fresh =>
        rw [List.cons_append, invitation?] at found
        split at found
        next same =>
          subst same
          exact absurd (List.mem_append_right _ List.mem_cons_self) (fresh invitation)
        next => exact ih run found
      | accept =>
        rw [List.cons_append, invitation?] at found
        split at found
        next => cases found
        next => exact ih run found

end Schedule

/-- Nothing of a subscriber is in the registry, and nothing waits in its queue. -/
structure Lost (relay : Relay) (subscriber : Subscriber) : Prop where
  absent : ∀ key stream, relay.stream? key = some stream → subscriber.id ∉ stream.sinks
  empty : (relay.queue subscriber.id).toList = []

/-- The queue after a packet more, if it has room for it. -/
def queueWith (relay : Relay) (id : Nat) (packet : Packet) : List Packet :=
  let queue := (relay.queue id).toList
  if queue.length < relay.capacity then queue ++ [packet] else queue

/-- A subscriber waits for packets of its key, and gets those of whoever publishes there now or next. -/
structure Reached (history : History) (relay : Relay) (subscriber : Subscriber) : Prop where
  joined : relay.isJoined subscriber = true
  waits : ∀ after, relay.receive subscriber ≠ (after, .closed)
  present : ∀ claim ∈ history.publishers, claim.key = subscriber.key → ∀ packet,
    ((relay.send claim packet).queue subscriber.id).toList = relay.queueWith subscriber.id packet
  next : ∀ after claim, relay.publish subscriber.key = .ok (after, claim) → ∀ packet,
    ((after.send claim packet).queue subscriber.id).toList = relay.queueWith subscriber.id packet

section
variable {history : History} {relay after : Relay} {part : Section} {subscriber : Subscriber}

theorem isJoined_iff {relay : Relay} {subscriber : Subscriber} : relay.isJoined subscriber = true ↔
    ∃ stream, relay.stream? subscriber.key = some stream ∧ subscriber.id ∈ stream.sinks := by
  simp [isJoined, Option.any_eq_true]

theorem queue_send {claim : Publisher} {stream : LiveStream} (there : relay.stream? claim.key = some stream)
    (serial : stream.serial = claim.serial) (distinct : stream.sinks.Nodup) (packet : Packet) (id : Nat) :
    ((relay.send claim packet).queue id).toList =
      if id ∈ stream.sinks then relay.queueWith id packet else (relay.queue id).toList := by
  have same : (relay.setStream claim.key (stream.keep packet)).queue id = relay.queue id := rfl
  have room : (relay.setStream claim.key (stream.keep packet)).capacity = relay.capacity := rfl
  rw [send_eq there serial, queue_foldl_enqueue packet stream.sinks distinct, same, room, queueWith]
  by_cases member : id ∈ stream.sinks <;> simp [member]

theorem Sound.reached (sound : Sound history relay) (joined : relay.isJoined subscriber = true) :
    Reached history relay subscriber := by
  obtain ⟨stream, there, member⟩ := isJoined_iff.mp joined
  refine ⟨joined, ?_, ?_, ?_⟩
  · intro after closed
    rw [receive, joined] at closed
    split at closed <;> cases closed
  · intro claim held same packet
    obtain ⟨claimed, present, serial, _⟩ := sound.claimed claim held
    obtain rfl := Option.some.inj (there.symm.trans (same ▸ present))
    rw [queue_send present serial (sound.distinct _ _ present), if_pos member]
  · intro after claim given packet
    obtain ⟨_, made, _, queues, changes⟩ := publish_ok given
    rw [opened_of_some there] at changes made
    have present : after.stream? claim.key = some { stream with publisher := some relay.nextId } := by
      rw [made]
      exact changes.here.trans (LiveStream.settled_of_used rfl)
    have queue : after.queue subscriber.id = relay.queue subscriber.id := by rw [Relay.queue, queues, Relay.queue]
    have distinct : stream.sinks.Nodup := sound.distinct _ _ there
    have sent := queue_send present (made ▸ rfl) distinct packet subscriber.id
    rw [sent, if_pos member, queueWith, queueWith, queue, changes.capacity]

theorem Effect.leaver_ne {before : Relay} (effect : Effect history before after part) {nextId : Nat}
    (handles : Handles history nextId) (held : subscriber ∈ history.subscribers)
    (stays : part ≠ .single (.unsubscribed subscriber)) : part.leaver? ≠ some subscriber.id := by
  intro leaves
  cases effect with
  | @leave leaver also =>
    obtain rfl := handles.eq_of_id also held (Option.some.inj leaves)
    exact stays rfl
  | _ => cases leaves

/-- Who has joined stays so until it leaves or a publisher of its key does. -/
theorem Effect.isJoined {before : Relay} (effect : Effect history before after part) {nextId : Nat}
    (handles : Handles history nextId) (held : subscriber ∈ history.subscribers)
    (joined : before.isJoined subscriber = true) (remains : part.departs subscriber.key = false)
    (stays : part ≠ .single (.unsubscribed subscriber)) : after.isJoined subscriber = true := by
  obtain ⟨stream, there, member⟩ := isJoined_iff.mp joined
  have different := effect.leaver_ne handles held stays
  rcases effect.continues there remains with ⟨kept, present, continues⟩ | ⟨leaver, rfl, _, _, _, alone⟩
  · exact isJoined_iff.mpr ⟨kept, present, continues.sinks _ member different⟩
  · exact absurd (congrArg some (alone _ member).symm) different

theorem not_mem_opened {id : Nat} (absent : ∀ key stream, relay.stream? key = some stream → id ∉ stream.sinks)
    (key : String) : id ∉ (relay.opened key).sinks := by
  cases there : relay.stream? key with
  | some stream => exact opened_of_some there ▸ absent key stream there
  | none =>
    rw [opened_of_none there]
    exact List.not_mem_nil

/-- Nothing gets into a queue whose number no stream has. -/
theorem Schedule.Step.queue_empty {schedule : Schedule} (sound : Sound schedule.history relay)
    (next : Schedule.Step schedule relay part after) {id : Nat} (numbered : id < relay.nextId)
    (absent : ∀ key, id ∉ (relay.opened key).sinks) (stays : part.leaver? ≠ some id)
    (empty : (relay.queue id).toList = []) : (after.queue id).toList = [] := by
  cases next with
  | single next whole =>
    cases next with
    | publish given =>
      obtain ⟨_, _, _, queues, _⟩ := publish_ok given
      rwa [queue, queues]
    | refuse => exact empty
    | subscribe => cases whole
    | @send claim held packet =>
      obtain ⟨stream, there, serial, _⟩ := sound.claimed claim held
      have outside : id ∉ stream.sinks := opened_of_some there ▸ absent claim.key
      rwa [queue_send there serial (sound.distinct _ _ there), if_neg outside]
    | @receive subscriber _ _ _ taken =>
      have received := queue_receive relay subscriber id
      rw [taken, empty] at received
      simpa using received
    | @unpublish claim held =>
      obtain ⟨stream, there, _, publishes⟩ := sound.claimed claim held
      obtain ⟨_, queues, _⟩ := dropPublisher_changes sound.ascending there publishes
      rwa [queue, queues]
    | @unsubscribe subscriber =>
      obtain ⟨_, queues, _⟩ := dropSubscriber_changes sound.ascending subscriber
      have apart : id ≠ subscriber.id := fun same => stays (same ▸ rfl)
      rwa [queue, queues, Assoc.find?_erase_of_ne apart]
  | invite _ found =>
    obtain ⟨_, _, _, _, _, queues, _⟩ := invite_eq found
    rwa [queue, queues]
  | @accept _ invitation _ _ _ accepted =>
    have apart : id ≠ relay.nextId := Nat.ne_of_lt numbered
    by_cases stands : Stands relay invitation
    · obtain ⟨_, _, ⟨queue, queues⟩, _⟩ := accept_of_stands stands accepted
      rwa [queue_insert_of_ne queues apart]
    · obtain ⟨_, rfl⟩ := accept_of_not_stands stands accepted
      rwa [queue_insert_of_ne rfl apart]

theorem Lost.step {schedule : Schedule} (sound : Sound schedule.history relay)
    (next : Schedule.Step schedule relay part after) (held : subscriber ∈ schedule.history.subscribers)
    (lost : Lost relay subscriber) (stays : part ≠ .single (.unsubscribed subscriber)) : Lost after subscriber := by
  have numbered : subscriber.id < relay.nextId := sound.handles.numbered _ (History.subscribed_of_mem held)
  refine ⟨?_, ?_⟩
  · intro key stream there member
    have descends := (next.effect sound).descends there
    have before := not_mem_opened lost.absent key
    rcases descends.sinks with fewer | ⟨same, _⟩
    · exact before (fewer.subset member)
    · rw [same, List.mem_append, List.mem_singleton] at member
      rcases member with older | newest
      · exact before older
      · exact Nat.ne_of_lt numbered newest
  · have different := (next.effect sound).leaver_ne sound.handles held stays
    exact next.queue_empty sound numbered (not_mem_opened lost.absent) different lost.empty

end

/-- A call that finds its stream joins it, and one that does not is lost at once. -/
theorem Sound.accepted {history : History} {relay after : Relay} (sound : Sound history relay) {invitation : Invitation}
    {subscriber : Subscriber} (accepted : relay.accept invitation = (after, subscriber)) :
    subscriber.key = invitation.key ∧ (Stands relay invitation → after.isJoined subscriber = true) ∧
      (¬ Stands relay invitation → Lost after subscriber) := by
  by_cases stands : Stands relay invitation
  · obtain ⟨rfl, _, _, changes⟩ := accept_of_stands stands accepted
    have used : LiveStream.isUnused { relay.opened invitation.key with
        sinks := (relay.opened invitation.key).sinks ++ [relay.nextId] } = false := by simp [LiveStream.isUnused]
    refine ⟨rfl, fun _ => ?_, fun fallen => absurd stands fallen⟩
    exact isJoined_iff.mpr ⟨_, changes.here.trans (LiveStream.settled_of_used used), by simp⟩
  · obtain ⟨rfl, rfl⟩ := accept_of_not_stands stands accepted
    refine ⟨rfl, fun still => absurd still stands, fun _ => ⟨?_, ?_⟩⟩
    · intro key stream there member
      exact Nat.lt_irrefl _ (sound.sinks key stream there _ member)
    · rw [queue_insert_self rfl]
      exact Queue.toList_ofList []

namespace Schedule
variable {capacity : Nat} {schedule earlier between later : Schedule} {relay after : Relay} {part : Section}
  {call : Nat} {invitation : Invitation} {subscriber : Subscriber}

theorem mem_subscribers_cons (held : subscriber ∈ schedule.history.subscribers)
    (stays : part ≠ .single (.unsubscribed subscriber)) : subscriber ∈ (history (part :: schedule)).subscribers := by
  cases part with
  | single operation =>
    cases operation with
    | unsubscribed leaver =>
      refine List.mem_filter.mpr ⟨held, ?_⟩
      have different : subscriber ≠ leaver := by
        rintro rfl
        exact stays rfl
      simpa using different
    | subscribed => exact List.mem_cons_of_mem _ held
    | published | refused | sent | received | unpublished => exact held
  | invited => exact held
  | accepted => exact List.mem_cons_of_mem _ held

theorem Run.after_accepted
    (run : Run capacity (later ++ .accepted call subscriber :: (between ++ .invited call invitation :: earlier)) relay)
    (held : .single (.unsubscribed subscriber) ∉ later)
    (remains : ∀ part ∈ later ++ between, part.departs subscriber.key = false) :
    subscriber ∈ (history (later ++ .accepted call subscriber ::
      (between ++ .invited call invitation :: earlier))).subscribers ∧
    (¬ GivenUp capacity subscriber.key (.invited call invitation :: earlier) between →
      relay.isJoined subscriber = true) ∧
    (GivenUp capacity subscriber.key (.invited call invitation :: earlier) between → Lost relay subscriber) := by
  induction later generalizing relay with
  | nil =>
    cases run with
    | step run next =>
      cases next with
      | accept invited accepted =>
        obtain rfl := run.invitation?_eq invited
        obtain ⟨key, joins, falls⟩ := run.sound.accepted accepted
        rw [key] at remains ⊢
        have stands := (run.stands_iff remains).2
        refine ⟨List.mem_cons_self, fun kept => joins (stands.mpr kept), fun gone => falls fun still => ?_⟩
        exact stands.mp still gone
  | cons part later ih =>
    cases run with
    | step run next =>
      have stays : part ≠ .single (.unsubscribed subscriber) := fun same => held (same ▸ List.mem_cons_self)
      obtain ⟨member, joined, lost⟩ := ih run (fun still => held (List.mem_cons_of_mem _ still))
        fun other here => remains other (List.mem_cons_of_mem _ here)
      have sound := run.sound
      refine ⟨mem_subscribers_cons member stays, fun kept => ?_, fun gone => ?_⟩
      · exact (next.effect sound).isJoined sound.handles member (joined kept) (remains part List.mem_cons_self) stays
      · exact (lost gone).step sound next member stays

/-- A subscriber is lost between the two sections of its call exactly if in the gap another subscriber of the key left
that was the last to use the stream. Otherwise it is reached, by the publisher of its key or the next one, and waits for
packets, until it leaves or a publisher of its key does. -/
theorem reached_unless_given_up
    (run : Run capacity (later ++ .accepted call subscriber :: (between ++ .invited call invitation :: earlier)) relay)
    (held : .single (.unsubscribed subscriber) ∉ later)
    (remains : ∀ part ∈ later ++ between, part.departs subscriber.key = false) :
    (¬ GivenUp capacity subscriber.key (.invited call invitation :: earlier) between →
      Reached (history (later ++ .accepted call subscriber ::
        (between ++ .invited call invitation :: earlier))) relay subscriber) ∧
    (GivenUp capacity subscriber.key (.invited call invitation :: earlier) between → Lost relay subscriber) := by
  obtain ⟨_, joined, lost⟩ := run.after_accepted held remains
  exact ⟨fun kept => run.sound.reached (joined kept), lost⟩

/-- The first subscriber comes. -/
def arrival : Schedule :=
  [.accepted 0 ⟨"live/cam", 1⟩, .invited 0 ⟨"live/cam", 1⟩]

/-- A publisher takes the place of the first subscriber. -/
def interlude : Schedule :=
  [.single (.unsubscribed ⟨"live/cam", 1⟩), .single (.published ⟨"live/cam", 2, 1⟩)]

/-- The first subscriber is there, and a second call has been invited to its stream. -/
def attended : Relay :=
  ⟨16, 2, 2, [("live/cam", ⟨1, none, [1], none, none, none⟩)], [(1, .ofList [])]⟩

/-- The second subscriber is there, with the publisher that came in the gap. -/
def relieved : Relay :=
  ⟨16, 4, 2, [("live/cam", ⟨1, some 2, [3], none, none, none⟩)], [(3, .ofList [])]⟩

/-- The second subscriber came when nobody was there any more. -/
def deserted : Relay :=
  ⟨16, 3, 2, [], [(2, .ofList [])]⟩

theorem Run.attended : Run 16 (.invited 1 ⟨"live/cam", 1⟩ :: arrival) attended := by
  have opened : Run 16 [.invited 0 ⟨"live/cam", 1⟩] _ :=
    Run.new.step (.invite (by simp) (show Relay.invite _ "live/cam" = _ from rfl))
  have joined : Run 16 arrival Schedule.attended :=
    opened.step (.accept rfl (show Relay.accept _ ⟨"live/cam", 1⟩ = _ from rfl))
  exact joined.step (.invite (by simp [arrival]) (show Relay.invite _ "live/cam" = _ from rfl))

/-- A publisher has come in the gap, so the stream stays when its only subscriber leaves. -/
theorem caller_is_reached_past_leaver :
    Run 16 ([.single (.refused "live/cam")] ++ .accepted 1 ⟨"live/cam", 3⟩ ::
      (interlude ++ .invited 1 ⟨"live/cam", 1⟩ :: arrival)) relieved ∧
    Reached [.refused "live/cam", .subscribed ⟨"live/cam", 3⟩, .unsubscribed ⟨"live/cam", 1⟩,
      .published ⟨"live/cam", 2, 1⟩, .subscribed ⟨"live/cam", 1⟩] relieved ⟨"live/cam", 3⟩ := by
  have claimed : Run 16 (.single (.published ⟨"live/cam", 2, 1⟩) :: .invited 1 ⟨"live/cam", 1⟩ :: arrival) _ :=
    Run.attended.step (.single (.publish (show Relay.publish _ "live/cam" = _ from rfl)) rfl)
  have left : Run 16 (interlude ++ .invited 1 ⟨"live/cam", 1⟩ :: arrival) _ :=
    claimed.step (.single (.unsubscribe (by decide)) rfl)
  have joined : Run 16 (.accepted 1 ⟨"live/cam", 3⟩ :: (interlude ++ .invited 1 ⟨"live/cam", 1⟩ :: arrival)) relieved :=
    left.step (.accept rfl (show Relay.accept _ ⟨"live/cam", 1⟩ = _ from rfl))
  have run : Run 16 ([.single (.refused "live/cam")] ++ .accepted 1 ⟨"live/cam", 3⟩ ::
      (interlude ++ .invited 1 ⟨"live/cam", 1⟩ :: arrival)) relieved :=
    joined.step (.single (.refuse (show Relay.publish _ "live/cam" = _ from rfl)) rfl)
  obtain ⟨reached, lost⟩ := reached_unless_given_up run (by simp) (by decide)
  refine ⟨run, reached fun gone => ?_⟩
  exact (lost gone).absent "live/cam" _ rfl (by decide)

/-- A call is invited to a stream whose only subscriber leaves before the call is accepted. No publisher has ever left,
but the new subscriber is not joined, its queue is closed at once, and the next publisher does not reach it. -/
theorem leaver_in_gap_takes_stream_along :
    Run 16 (.accepted 1 ⟨"live/cam", 2⟩ :: .single (.unsubscribed ⟨"live/cam", 1⟩) ::
      .invited 1 ⟨"live/cam", 1⟩ :: arrival) deserted ∧
    (∀ part ∈ .accepted 1 ⟨"live/cam", 2⟩ :: .single (.unsubscribed ⟨"live/cam", 1⟩) ::
      .invited 1 ⟨"live/cam", 1⟩ :: arrival, Section.departs "live/cam" part = false) ∧
    deserted.isJoined ⟨"live/cam", 2⟩ = false ∧ deserted.receive ⟨"live/cam", 2⟩ = (deserted, .closed) ∧
    ∃ after claim, deserted.publish "live/cam" = .ok (after, claim) ∧
      ∀ packet, ((after.send claim packet).queue 2).toList = [] := by
  have left := Run.attended.step (.single (.unsubscribe (show ⟨"live/cam", 1⟩ ∈ _ by decide)) rfl)
  have accepted : Run 16 (.accepted 1 ⟨"live/cam", 2⟩ :: _) deserted :=
    left.step (.accept rfl (show Relay.accept _ ⟨"live/cam", 1⟩ = _ from rfl))
  have published : deserted.publish "live/cam" =
      .ok (⟨16, 4, 3, [("live/cam", ⟨2, some 3, [], none, none, none⟩)], [(2, .ofList [])]⟩, ⟨"live/cam", 3, 2⟩) := rfl
  exact ⟨accepted, by decide, rfl, rfl, _, _, published, fun packet => rfl⟩

end Schedule
end RtmpRelay.Relay
