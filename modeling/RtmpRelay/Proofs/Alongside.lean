import RtmpRelay.Proofs.Delivery

/-! A relay next to the one that it would be without somebody. One publisher or player more makes a difference to one
key alone, and while it is there other publishers may leave. When it goes, what is left is the relay without it:
after a player up to the numbers that it has used, after a publisher without the stream of its key. -/

namespace RtmpRelay

namespace Relay
variable {history : History} {relay after without : Relay}

theorem Accounts.sink_numbered (accounts : Accounts history relay) {key : String} {id : Nat}
    (member : id ∈ (relay.opened key).sinks) : id < relay.nextId := by
  rw [(accounts.portrait key).sinks] at member
  obtain ⟨subscriber, follower, rfl⟩ := List.mem_map.mp member
  have held := (List.mem_filter.mp (List.mem_reverse.mp follower)).1
  exact accounts.handles.numbered _ (History.subscribed_of_mem held)

theorem Accounts.publisher_numbered (accounts : Accounts history relay) {key : String} {id : Nat}
    (publishes : (relay.opened key).publisher = some id) : id < relay.nextId := by
  rw [(accounts.portrait key).publisher] at publishes
  obtain ⟨claim, found, rfl⟩ := Option.map_eq_some_iff.mp publishes
  have held := (accounts.handles.claim?_eq_some_iff.mp found).1
  exact accounts.handles.numbered _ (History.published_of_mem held)

theorem Accounts.settled_opened (accounts : Accounts history relay) (key : String) :
    (relay.opened key).settled = relay.stream? key := by
  cases there : relay.stream? key with
  | some stream => rw [opened_of_some there, LiveStream.settled_of_used (accounts.used _ _ there)]
  | none =>
    rw [opened_of_none there]
    rfl

/-- Queues are found by the numbers of handles that were given. -/
structure Queues (relay : Relay) : Prop where
  ascending : relay.queues.Ascending
  numbered : ∀ id, relay.nextId ≤ id → relay.queues.find? id = none

theorem Queues.insert (queues : Queues relay) {id : Nat} (queue : Queue Packet) (less : id < after.nextId)
    (further : relay.nextId ≤ after.nextId) (changed : after.queues = relay.queues.insert id queue) : Queues after := by
  refine ⟨changed ▸ queues.ascending.insert id queue, fun other beyond => ?_⟩
  rw [changed, Assoc.find?_insert_of_ne (by omega)]
  exact queues.numbered other (by omega)

theorem Queues.foldl_enqueue (packet : Packet) (ids : List Nat) (queues : Queues relay)
    (less : ∀ id ∈ ids, id < relay.nextId) : Queues (ids.foldl (fun relay id => relay.enqueue packet id) relay) := by
  induction ids generalizing relay with
  | nil => exact queues
  | cons id ids ih =>
    obtain ⟨same, enqueued⟩ := relay.enqueue_eq packet id
    have nextId : (relay.enqueue packet id).nextId = relay.nextId := by rw [enqueued]
    refine ih ?_ fun other member => nextId.symm ▸ less other (List.mem_cons_of_mem _ member)
    have own := less id List.mem_cons_self
    unfold enqueue
    dsimp only
    split
    · exact queues.insert _ own (Nat.le_refl _) rfl
    · exact queues

theorem Run.queues {capacity : Nat} (run : Run capacity history relay) : Queues relay := by
  induction run with
  | new => exact ⟨.nil, fun _ _ => rfl⟩
  | step run next ih =>
    have accounts := run.accounts
    cases next with
    | publish given =>
      obtain ⟨_, _, nextId, queues, _⟩ := publish_ok given
      exact ⟨queues ▸ ih.ascending, fun id beyond => queues ▸ ih.numbered id (by omega)⟩
    | refuse => exact ih
    | subscribe accepted =>
      obtain ⟨_, nextId, queues, _⟩ := subscribe_eq accepted
      exact ih.insert _ (by omega) (by omega) queues
    | @send claim held packet =>
      obtain ⟨stream, there, serial, _⟩ := accounts.claimed held
      rw [send_eq there serial]
      have kept : Queues (setStream _ claim.key (stream.keep packet)) := ⟨ih.ascending, ih.numbered⟩
      refine kept.foldl_enqueue packet stream.sinks fun id member => ?_
      exact accounts.sink_numbered (opened_of_some there ▸ member)
    | @receive subscriber _ delivery held taken =>
      have numbered := accounts.handles.numbered _ (History.subscribed_of_mem held)
      rw [receive] at taken
      split at taken <;> cases taken
      · exact ih.insert _ numbered (Nat.le_refl _) rfl
      · exact ih
    | @unpublish claim held =>
      obtain ⟨stream, there, _, publisher⟩ := accounts.claimed held
      obtain ⟨nextId, queues, _⟩ := dropPublisher_changes accounts.ascending there publisher
      exact ⟨queues ▸ ih.ascending, fun id beyond => queues ▸ ih.numbered id (nextId ▸ beyond)⟩
    | @unsubscribe subscriber held =>
      obtain ⟨nextId, queues, _⟩ := dropSubscriber_changes accounts.ascending subscriber
      refine ⟨queues ▸ ih.ascending.erase _, fun id beyond => ?_⟩
      have numbered : subscriber.id < _ := accounts.handles.numbered _ (History.subscribed_of_mem held)
      have different : id ≠ subscriber.id := by omega
      rw [queues, Assoc.find?_erase_of_ne different]
      exact ih.numbered id (nextId ▸ beyond)

/-- The registry has this claim for its key. -/
def Claimed (relay : Relay) (claim : Publisher) : Prop :=
  ∃ stream, relay.stream? claim.key = some stream ∧ stream.publisher = some claim.id

theorem Accounts.isClaimed (accounts : Accounts history relay) {claim : Publisher} (held : claim ∈ history.publishers) :
    Claimed relay claim := by
  obtain ⟨stream, there, _, holds⟩ := accounts.claimed held
  exact ⟨stream, there, holds⟩

def forget (relay : Relay) (key : String) : Relay :=
  { relay with streams := relay.streams.erase key }

theorem Claimed.dropPublisher_eq {claim : Publisher} (claimed : Claimed relay claim) :
    relay.dropPublisher claim = relay.forget claim.key := by
  obtain ⟨stream, there, holds⟩ := claimed
  simp only [dropPublisher, there, holds, if_true, settle]
  rfl

theorem stream?_forget_self (ascending : relay.streams.Ascending) (key : String) :
    (relay.forget key).stream? key = none :=
  ascending.find?_erase_self key

theorem stream?_forget_of_ne {key other : String} (different : other ≠ key) :
    (relay.forget key).stream? other = relay.stream? other :=
  Assoc.find?_erase_of_ne different relay.streams

theorem opened_forget_of_ne {key other : String} (different : other ≠ key) :
    (relay.forget key).opened other = relay.opened other := by
  rw [opened, stream?_forget_of_ne different]
  rfl

/-- Nothing of the registry is different but the stream of one key. -/
structure Beside (without : Relay) (key : String) (relay : Relay) : Prop where
  elsewhere : ∀ other, other ≠ key → relay.stream? other = without.stream? other
  ascending : relay.streams.Ascending
  capacity : relay.capacity = without.capacity

namespace Beside
variable {key : String} {stream : LiveStream}

theorem changes (beside : Beside without key relay) (changes : Changes relay after key stream) :
    Beside without key after where
  elsewhere := fun other different => (changes.elsewhere other different).trans (beside.elsewhere other different)
  ascending := changes.ascending beside.ascending
  capacity := changes.capacity.trans beside.capacity

theorem forget (beside : Beside without key relay) (ascending : without.streams.Ascending) (gone : String) :
    Beside (without.forget gone) key (relay.forget gone) where
  elsewhere := by
    intro other different
    by_cases same : other = gone
    · rw [same, stream?_forget_self beside.ascending, stream?_forget_self ascending]
    · rw [stream?_forget_of_ne same, stream?_forget_of_ne same]
      exact beside.elsewhere other different
  ascending := beside.ascending.erase gone
  capacity := beside.capacity

theorem streams_eq (beside : Beside without key relay) (ascending : without.streams.Ascending)
    (here : relay.stream? key = without.stream? key) : relay.streams = without.streams := by
  refine beside.ascending.ext ascending fun other => ?_
  by_cases same : other = key
  · rw [same]
    exact here
  · exact beside.elsewhere other same

theorem streams_eq_erase (beside : Beside without key relay) (ascending : without.streams.Ascending) :
    (relay.forget key).streams = without.streams.erase key := by
  refine (beside.ascending.erase key).ext (ascending.erase key) fun other => ?_
  by_cases same : other = key
  · rw [same, ascending.find?_erase_self]
    exact beside.ascending.find?_erase_self key
  · rw [Assoc.find?_erase_of_ne same, Assoc.find?_erase_of_ne same]
    exact beside.elsewhere other same

end Beside

theorem find?_foldl_enqueue (packet : Packet) {ids : List Nat} {id : Nat} (absent : id ∉ ids) (relay : Relay) :
    (ids.foldl (fun relay id => relay.enqueue packet id) relay).queues.find? id = relay.queues.find? id := by
  induction ids generalizing relay with
  | nil => rfl
  | cons other ids ih =>
    obtain ⟨different, further⟩ := not_or.mp (mt List.mem_cons.mpr absent)
    rw [List.foldl_cons, ih further]
    unfold enqueue
    dsimp only
    split
    · exact Assoc.find?_insert_of_ne different _ _
    · rfl

/-- With a publisher that would not be there. It sends to those who would wait for one, and to nobody else. -/
structure Publishing (without relay : Relay) (claim : Publisher) : Prop where
  here : ∃ stream, relay.stream? claim.key = some stream ∧ stream.serial = claim.serial ∧
    stream.publisher = some claim.id ∧ stream.sinks = (without.opened claim.key).sinks
  unclaimed : (without.opened claim.key).publisher = none
  fresh : without.nextId ≤ claim.id
  beside : Beside without claim.key relay
  queues : ∀ id, id ∉ (without.opened claim.key).sinks → relay.queues.find? id = without.queues.find? id

namespace Publishing
variable {claim : Publisher}

theorem claimed (publishing : Publishing without relay claim) : Claimed relay claim := by
  obtain ⟨stream, there, _, holds, _⟩ := publishing.here
  exact ⟨stream, there, holds⟩

theorem start (ascending : without.streams.Ascending) {key : String}
    (given : without.publish key = .ok (relay, claim)) : Publishing without relay claim := by
  obtain ⟨free, rfl, _, queues, changes⟩ := publish_ok given
  have beside : Beside without key without := ⟨fun _ _ => rfl, ascending, rfl⟩
  exact ⟨⟨_, changes.here, rfl, rfl, rfl⟩, free, Nat.le_refl _, beside.changes changes, fun id _ => by rw [queues]⟩

theorem send (publishing : Publishing without relay claim) (packet : Packet) :
    Publishing without (relay.send claim packet) claim := by
  obtain ⟨stream, there, serial, holds, sinks⟩ := publishing.here
  have used : stream.isUnused = false := by simp [LiveStream.isUnused, holds]
  obtain ⟨_, changes⟩ := send_changes there serial used packet
  obtain ⟨sameSerial, samePublisher, sameSinks⟩ := stream.keep_members packet
  have still : (stream.keep packet).isUnused = false := by
    rw [LiveStream.isUnused, samePublisher, sameSinks]
    exact used
  refine ⟨⟨_, changes.here.trans (LiveStream.settled_of_used still), sameSerial.trans serial,
    samePublisher.trans holds, sameSinks.trans sinks⟩, publishing.unclaimed, publishing.fresh,
    publishing.beside.changes changes, fun id absent => ?_⟩
  rw [send_eq there serial, find?_foldl_enqueue packet (sinks ▸ absent)]
  exact publishing.queues id absent

theorem departed (publishing : Publishing without relay claim) (ascending : without.streams.Ascending)
    {other : Publisher} (leaves : Claimed without other) :
    Publishing (without.dropPublisher other) (relay.dropPublisher other) claim := by
  have different : claim.key ≠ other.key := by
    intro same
    obtain ⟨stream, there, holds⟩ := leaves
    have unclaimed := publishing.unclaimed
    rw [same, opened_of_some there, holds] at unclaimed
    cases unclaimed
  have also : Claimed relay other := by
    obtain ⟨stream, there, holds⟩ := leaves
    exact ⟨stream, (publishing.beside.elsewhere _ different.symm).trans there, holds⟩
  have opened : (without.forget other.key).opened claim.key = without.opened claim.key := opened_forget_of_ne different
  rw [leaves.dropPublisher_eq, also.dropPublisher_eq]
  refine ⟨?_, opened ▸ publishing.unclaimed, publishing.fresh, publishing.beside.forget ascending _, ?_⟩
  · rw [opened, stream?_forget_of_ne different]
    exact publishing.here
  · rw [opened]
    exact publishing.queues

end Publishing

/-- With a subscriber that would not be there, until the publisher of its key leaves. -/
structure Playing (without relay : Relay) (subscriber : Subscriber) : Prop where
  here : relay.stream? subscriber.key = some { without.opened subscriber.key with
      sinks := (without.opened subscriber.key).sinks ++ [subscriber.id] } ∨
    relay.stream? subscriber.key = none ∧ without.stream? subscriber.key = none
  fresh : without.nextId ≤ subscriber.id
  beside : Beside without subscriber.key relay
  ascending : relay.queues.Ascending
  queues : ∀ id, id ≠ subscriber.id → relay.queues.find? id = without.queues.find? id

namespace Playing
variable {subscriber : Subscriber}

theorem start (ascending : without.streams.Ascending) (queues : without.queues.Ascending) {key : String}
    (accepted : without.subscribe key = (relay, subscriber)) : Playing without relay subscriber := by
  obtain ⟨rfl, _, inserted, changes⟩ := subscribe_eq accepted
  have beside : Beside without key without := ⟨fun _ _ => rfl, ascending, rfl⟩
  refine ⟨.inl ?_, Nat.le_refl _, beside.changes changes, inserted ▸ queues.insert _ _, fun id different => ?_⟩
  · exact changes.here.trans (LiveStream.settled_of_used (by simp [LiveStream.isUnused]))
  · rw [inserted]
    exact Assoc.find?_insert_of_ne different _ _

theorem receive (playing : Playing without relay subscriber) :
    Playing without (relay.receive subscriber).1 subscriber := by
  rw [Relay.receive]
  split
  next packet rest popped =>
    refine ⟨playing.here, playing.fresh, ⟨playing.beside.elsewhere, playing.beside.ascending, playing.beside.capacity⟩,
      playing.ascending.insert _ _, fun id different => ?_⟩
    exact (Assoc.find?_insert_of_ne different _ _).trans (playing.queues id different)
  next => exact playing

theorem departed (playing : Playing without relay subscriber) (ascending : without.streams.Ascending)
    {other : Publisher} (leaves : Claimed without other) :
    Playing (without.dropPublisher other) (relay.dropPublisher other) subscriber := by
  have also : Claimed relay other := by
    obtain ⟨stream, there, holds⟩ := leaves
    by_cases same : other.key = subscriber.key
    · rcases playing.here with joined | ⟨_, gone⟩
      · rw [← same, opened_of_some there] at joined
        exact ⟨_, joined, holds⟩
      · rw [← same, there] at gone
        cases gone
    · exact ⟨stream, (playing.beside.elsewhere _ same).trans there, holds⟩
  rw [leaves.dropPublisher_eq, also.dropPublisher_eq]
  refine ⟨?_, playing.fresh, playing.beside.forget ascending _, playing.ascending, playing.queues⟩
  by_cases same : subscriber.key = other.key
  · rw [same]
    exact .inr ⟨stream?_forget_self playing.beside.ascending _, stream?_forget_self ascending _⟩
  · rw [stream?_forget_of_ne same, stream?_forget_of_ne same, opened_forget_of_ne same]
    exact playing.here

end Playing

theorem eq_of_fields {first second : Relay} (capacity : first.capacity = second.capacity)
    (streams : first.streams = second.streams) (queues : first.queues = second.queues) :
    first = { second with nextId := first.nextId, nextSerial := first.nextSerial } := by
  rw [← capacity, ← streams, ← queues]

/-- A player leaves nothing but the numbers it has used. -/
structure LeftByPlayer (without relay : Relay) (subscriber : Subscriber) : Prop where
  same : ∃ nextId nextSerial, relay = { without with nextId, nextSerial }
  queue : relay.queues.find? subscriber.id = none
  sinks : ∀ key stream, relay.stream? key = some stream → subscriber.id ∉ stream.sinks

/-- A publisher takes the stream of its key along, with all that was kept, and its subscribers are cut off. All others
have what they would have. -/
structure LeftByPublisher (without relay : Relay) (claim : Publisher) : Prop where
  same : ∃ nextId nextSerial queues,
    relay = { without with nextId, nextSerial, queues, streams := without.streams.erase claim.key } ∧
      ∀ id, id ∉ (without.opened claim.key).sinks → queues.find? id = without.queues.find? id
  gone : relay.stream? claim.key = none
  cutOff : ∀ subscriber : Subscriber, subscriber.key = claim.key → relay.isJoined subscriber = false
  publishers : ∀ key stream, relay.stream? key = some stream → stream.publisher ≠ some claim.id

theorem Playing.left {subscriber : Subscriber} (playing : Playing without relay subscriber)
    (accounts : Accounts history without) (queues : Queues without) :
    LeftByPlayer without (relay.dropSubscriber subscriber) subscriber := by
  have absent : ∀ key, subscriber.id ∉ (without.opened key).sinks := by
    intro key member
    have less := accounts.sink_numbered member
    have fresh := playing.fresh
    omega
  obtain ⟨_, erased, changes⟩ := dropSubscriber_changes playing.beside.ascending subscriber
  have here : (relay.dropSubscriber subscriber).stream? subscriber.key = without.stream? subscriber.key := by
    rw [changes.here]
    rcases playing.here with joined | ⟨gone, never⟩
    · have back : ((without.opened subscriber.key).sinks ++ [subscriber.id]).filter (· ≠ subscriber.id) =
          (without.opened subscriber.key).sinks := by
        have others : (without.opened subscriber.key).sinks.filter (· ≠ subscriber.id) =
            (without.opened subscriber.key).sinks := by
          refine List.filter_eq_self.mpr fun id member => ?_
          have different : id ≠ subscriber.id := fun same => absent _ (same ▸ member)
          simpa using different
        rw [List.filter_append, others]
        simp
      rw [opened_of_some joined]
      dsimp only
      rw [back]
      exact accounts.settled_opened _
    · rw [opened_of_none gone, never]
      rfl
  have streams := (playing.beside.changes changes).streams_eq accounts.ascending here
  have own : (relay.dropSubscriber subscriber).queues.find? subscriber.id = none := by
    rw [erased]
    exact playing.ascending.find?_erase_self _
  have others : (relay.dropSubscriber subscriber).queues = without.queues := by
    refine Assoc.Ascending.ext (erased ▸ playing.ascending.erase _) queues.ascending fun id => ?_
    by_cases same : id = subscriber.id
    · rw [same, own, queues.numbered _ playing.fresh]
    · rw [erased, Assoc.find?_erase_of_ne same]
      exact playing.queues id same
  refine ⟨⟨_, _, eq_of_fields (changes.capacity.trans playing.beside.capacity) streams others⟩, own, ?_⟩
  intro key stream there
  have stands : without.stream? key = some stream := by rw [← there, stream?, stream?, streams]
  exact opened_of_some stands ▸ absent key

theorem Publishing.left {claim : Publisher} (publishing : Publishing without relay claim)
    (accounts : Accounts history without) : LeftByPublisher without (relay.dropPublisher claim) claim := by
  have streams := publishing.beside.streams_eq_erase accounts.ascending
  have gone : (relay.forget claim.key).stream? claim.key = none := stream?_forget_self publishing.beside.ascending _
  rw [publishing.claimed.dropPublisher_eq]
  refine ⟨⟨relay.nextId, relay.nextSerial, relay.queues, ?_, publishing.queues⟩, gone, ?_, ?_⟩
  · rw [← streams, ← publishing.beside.capacity]
    rfl
  · intro subscriber same
    rw [isJoined, same, gone]
    rfl
  · intro key stream there holds
    have different : key ≠ claim.key := by
      rintro rfl
      rw [gone] at there
      cases there
    rw [stream?_forget_of_ne different, publishing.beside.elsewhere key different] at there
    have less := accounts.publisher_numbered (by rw [opened_of_some there, holds])
    have fresh := publishing.fresh
    omega

end Relay
end RtmpRelay
