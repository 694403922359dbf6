import Mathlib.Data.Set.Card
import RtmpRelay.Proofs.RelayHistory

/-! The registry accounts for the handles that are held. Handles outlive the streams they were made for, and a key is
given to a new stream after its old one is gone, so the invariant compares each stream with the history of its key:
its publisher is the one holder of a claim to the key, and its sinks are the subscribers that came after the last
departure. Every operation changes one stream and leaves all others as they are (`Changes`). -/

namespace RtmpRelay

namespace LiveStream

/-- What the registry keeps of a changed stream: nothing, if nobody uses it any more. -/
def settled (stream : LiveStream) : Option LiveStream :=
  if stream.isUnused then none else some stream

theorem isUnused_iff {stream : LiveStream} : stream.isUnused = true ↔ stream.publisher = none ∧ stream.sinks = [] := by
  simp [isUnused]

theorem settled_of_used {stream : LiveStream} (used : stream.isUnused = false) : stream.settled = some stream := by
  simp [settled, used]

theorem settled_eq_some_iff {stream kept : LiveStream} :
    stream.settled = some kept ↔ stream.isUnused = false ∧ stream = kept := by
  cases used : stream.isUnused <;> simp [settled, used]

/-- What is kept for later subscribers says nothing about who takes part. -/
theorem keep_members (stream : LiveStream) (packet : Packet) :
    (stream.keep packet).serial = stream.serial ∧ (stream.keep packet).publisher = stream.publisher ∧
      (stream.keep packet).sinks = stream.sinks := by
  unfold keep
  split <;> split <;> exact ⟨rfl, rfl, rfl⟩

end LiveStream

namespace Relay

/-- The stream under a key as whoever joins it next finds it. -/
def opened (relay : Relay) (key : String) : LiveStream :=
  (relay.stream? key).getD (.new relay.nextSerial)

theorem opened_of_some {relay : Relay} {key : String} {stream : LiveStream} (there : relay.stream? key = some stream) :
    relay.opened key = stream := by
  rw [opened, there, Option.getD_some]

theorem opened_of_none {relay : Relay} {key : String} (absent : relay.stream? key = none) :
    relay.opened key = .new relay.nextSerial := by
  rw [opened, absent, Option.getD_none]

/-- One stream is changed and no other. -/
structure Changes (before after : Relay) (key : String) (stream : LiveStream) : Prop where
  here : after.stream? key = stream.settled
  elsewhere : ∀ other, other ≠ key → after.stream? other = before.stream? other
  ascending : before.streams.Ascending → after.streams.Ascending
  capacity : after.capacity = before.capacity
  serial : stream.serial = (before.opened key).serial
  nextSerial : before.nextSerial ≤ after.nextSerial
  numbered : stream.isUnused = false → before.stream? key = none → stream.serial < after.nextSerial

theorem stream?_setStream_self (relay : Relay) (key : String) (stream : LiveStream) :
    (relay.setStream key stream).stream? key = some stream :=
  Assoc.find?_insert_self key stream relay.streams

theorem stream?_setStream_of_ne (relay : Relay) {key other : String} (different : other ≠ key) (stream : LiveStream) :
    (relay.setStream key stream).stream? other = relay.stream? other :=
  Assoc.find?_insert_of_ne different stream relay.streams

theorem Changes.none {relay : Relay} {key : String} (absent : relay.stream? key = none) :
    Changes relay relay key (.new relay.nextSerial) where
  here := absent
  elsewhere := fun _ _ => rfl
  ascending := id
  capacity := rfl
  serial := by rw [opened_of_none absent]
  nextSerial := Nat.le_refl _
  numbered := fun used => nomatch used

theorem changes_setStream {relay : Relay} {key : String} {stream changed : LiveStream}
    (there : relay.stream? key = some stream) (serial : changed.serial = stream.serial)
    (used : changed.isUnused = false) : Changes relay (relay.setStream key changed) key changed where
  here := by rw [stream?_setStream_self, LiveStream.settled_of_used used]
  elsewhere := fun _ different => stream?_setStream_of_ne relay different changed
  ascending := fun ascending => ascending.insert key changed
  capacity := rfl
  serial := by rw [serial, opened_of_some there]
  nextSerial := Nat.le_refl _
  numbered := fun _ absent => by rw [there] at absent; cases absent

theorem changes_settle {relay : Relay} {key : String} {stream changed : LiveStream}
    (ascending : relay.streams.Ascending) (there : relay.stream? key = some stream)
    (serial : changed.serial = stream.serial) : Changes relay (relay.settle key changed) key changed := by
  cases used : changed.isUnused with
  | false =>
    rw [settle, used]
    exact changes_setStream there serial used
  | true =>
    have erased : relay.settle key changed = { relay with streams := relay.streams.erase key } := by
      rw [settle, used, if_pos rfl]
    rw [erased]
    refine ⟨?_, ?_, ?_, rfl, ?_, Nat.le_refl _, ?_⟩
    · rw [LiveStream.settled, used, if_pos rfl]
      exact ascending.find?_erase_self key
    · intro other different
      exact Assoc.find?_erase_of_ne different relay.streams
    · intro _
      exact ascending.erase key
    · rw [serial, opened_of_some there]
    · intro still
      rw [used] at still
      cases still

/-- Queues and numbers of handles are no part of the registry. -/
theorem Changes.of_streams {before after last : Relay} {key : String} {stream : LiveStream}
    (changes : Changes before after key stream) (streams : last.streams = after.streams)
    (capacity : last.capacity = after.capacity) (nextSerial : last.nextSerial = after.nextSerial) :
    Changes before last key stream where
  here := (congrArg (·.find? key) streams).trans changes.here
  elsewhere := fun other different => (congrArg (·.find? other) streams).trans (changes.elsewhere other different)
  ascending := fun ascending => streams ▸ changes.ascending ascending
  capacity := capacity.trans changes.capacity
  serial := changes.serial
  nextSerial := nextSerial ▸ changes.nextSerial
  numbered := nextSerial ▸ changes.numbered

theorem openStream_eq (relay : Relay) (key : String) :
    ∃ middle, relay.openStream key = (middle, relay.opened key) ∧
      middle.stream? key = some (relay.opened key) ∧
      middle.nextId = relay.nextId ∧ middle.queues = relay.queues ∧ middle.capacity = relay.capacity ∧
      ∀ changed : LiveStream, changed.serial = (relay.opened key).serial → changed.isUnused = false →
        Changes relay (middle.setStream key changed) key changed := by
  cases there : relay.stream? key with
  | some stream =>
    rw [opened_of_some there]
    refine ⟨relay, ?_, there, rfl, rfl, rfl, fun changed => changes_setStream there⟩
    simp only [openStream, there]
  | none =>
    rw [opened_of_none there]
    let created : Relay :=
      { relay.setStream key (.new relay.nextSerial) with nextSerial := relay.nextSerial + 1 }
    refine ⟨created, ?_, stream?_setStream_self relay key _, rfl, rfl, rfl, ?_⟩
    · simp only [openStream, there]
      rfl
    intro changed serial used
    refine ⟨?_, ?_, ?_, rfl, ?_, Nat.le_succ _, ?_⟩
    · rw [stream?_setStream_self, LiveStream.settled_of_used used]
    · intro other different
      exact (stream?_setStream_of_ne created different changed).trans (stream?_setStream_of_ne relay different _)
    · intro ascending
      exact (ascending.insert key _).insert key changed
    · rw [serial, opened_of_none there]
    · intro _ _
      rw [serial]
      exact Nat.lt_succ_self _

theorem publish_ok {relay after : Relay} {key : String} {claim : Publisher}
    (given : relay.publish key = .ok (after, claim)) :
    (relay.opened key).publisher = none ∧ claim = ⟨key, relay.nextId, (relay.opened key).serial⟩ ∧
      after.nextId = relay.nextId + 1 ∧ after.queues = relay.queues ∧
      Changes relay after key { relay.opened key with publisher := some relay.nextId } := by
  obtain ⟨middle, found, _, nextId, queues, capacity, changes⟩ := openStream_eq relay key
  simp only [publish, found, nextId] at given
  split at given
  next => cases given
  next free =>
    cases given
    have changed := changes { relay.opened key with publisher := some relay.nextId } rfl rfl
    exact ⟨by simpa using free, rfl, rfl, queues, changed.of_streams rfl rfl rfl⟩

/-- A claim is refused because of another one, and nothing has been created in the attempt. -/
theorem publish_error {relay : Relay} {key : String} {error : Error} (refused : relay.publish key = .error error) :
    error = .alreadyPublishing key ∧ (relay.opened key).publisher ≠ none ∧ (relay.openStream key).1 = relay := by
  obtain ⟨middle, found, _⟩ := openStream_eq relay key
  simp only [publish, found] at refused
  split at refused
  next taken =>
    cases refused
    have publisher : (relay.opened key).publisher ≠ none := Option.isSome_iff_ne_none.mp taken
    refine ⟨rfl, publisher, ?_⟩
    cases there : relay.stream? key with
    | some stream => simp only [openStream, there]
    | none =>
      rw [opened_of_none there] at publisher
      exact absurd rfl publisher
  next => cases refused

theorem subscribe_eq {relay after : Relay} {key : String} {subscriber : Subscriber}
    (accepted : relay.subscribe key = (after, subscriber)) :
    subscriber = ⟨key, relay.nextId⟩ ∧ after.nextId = relay.nextId + 1 ∧
      after.queues = relay.queues.insert relay.nextId (.ofList ((relay.opened key).replay.take relay.capacity)) ∧
      Changes relay after key { relay.opened key with sinks := (relay.opened key).sinks ++ [relay.nextId] } := by
  obtain ⟨middle, found, there, nextId, queues, capacity, changes⟩ := openStream_eq relay key
  have there' : Assoc.find? key middle.streams = some (relay.opened key) := there
  simp only [subscribe, invite, found, accept, stream?, there', if_true, nextId, queues, capacity] at accepted
  cases accepted
  have changed := changes { relay.opened key with sinks := (relay.opened key).sinks ++ [relay.nextId] } rfl
    (by simp [LiveStream.isUnused])
  exact ⟨rfl, rfl, rfl, changed.of_streams rfl capacity.symm rfl⟩

theorem enqueue_eq (relay : Relay) (packet : Packet) (id : Nat) :
    ∃ queues, relay.enqueue packet id = { relay with queues } := by
  unfold enqueue
  dsimp only
  split <;> exact ⟨_, rfl⟩

theorem foldl_enqueue_eq (packet : Packet) (ids : List Nat) (relay : Relay) :
    ∃ queues, ids.foldl (fun relay id => relay.enqueue packet id) relay = { relay with queues } := by
  induction ids generalizing relay with
  | nil => exact ⟨_, rfl⟩
  | cons id ids ih =>
    obtain ⟨first, enqueued⟩ := relay.enqueue_eq packet id
    rw [List.foldl_cons, enqueued]
    exact ih { relay with queues := first }

theorem send_eq {relay : Relay} {claim : Publisher} {stream : LiveStream}
    (there : relay.stream? claim.key = some stream) (serial : stream.serial = claim.serial) (packet : Packet) :
    relay.send claim packet = stream.sinks.foldl (fun relay id => relay.enqueue packet id)
      (relay.setStream claim.key (stream.keep packet)) := by
  simp only [send, there, serial, if_true]

theorem send_changes {relay : Relay} {claim : Publisher} {stream : LiveStream}
    (there : relay.stream? claim.key = some stream) (serial : stream.serial = claim.serial)
    (used : stream.isUnused = false) (packet : Packet) :
    (relay.send claim packet).nextId = relay.nextId ∧
      Changes relay (relay.send claim packet) claim.key (stream.keep packet) := by
  obtain ⟨queues, eq⟩ := foldl_enqueue_eq packet stream.sinks (relay.setStream claim.key (stream.keep packet))
  obtain ⟨kept, publisher, sinks⟩ := stream.keep_members packet
  have still : (stream.keep packet).isUnused = false := by rw [LiveStream.isUnused, publisher, sinks]; exact used
  rw [send_eq there serial, eq]
  exact ⟨rfl, (changes_setStream there kept still).of_streams rfl rfl rfl⟩

theorem settle_nextId (relay : Relay) (key : String) (stream : LiveStream) :
    (relay.settle key stream).nextId = relay.nextId ∧ (relay.settle key stream).queues = relay.queues := by
  unfold settle
  split <;> exact ⟨rfl, rfl⟩

theorem dropPublisher_changes {relay : Relay} {claim : Publisher} {stream : LiveStream}
    (ascending : relay.streams.Ascending) (there : relay.stream? claim.key = some stream)
    (holds : stream.publisher = some claim.id) :
    (relay.dropPublisher claim).nextId = relay.nextId ∧ (relay.dropPublisher claim).queues = relay.queues ∧
      Changes relay (relay.dropPublisher claim) claim.key stream.vacate := by
  have eq : relay.dropPublisher claim = relay.settle claim.key stream.vacate := by
    simp only [dropPublisher, there, holds, if_true]
  obtain ⟨nextId, queues⟩ := relay.settle_nextId claim.key stream.vacate
  rw [eq]
  exact ⟨nextId, queues, changes_settle ascending there rfl⟩

theorem dropSubscriber_changes {relay : Relay} (ascending : relay.streams.Ascending) (subscriber : Subscriber) :
    (relay.dropSubscriber subscriber).nextId = relay.nextId ∧
      (relay.dropSubscriber subscriber).queues = relay.queues.erase subscriber.id ∧
      Changes relay (relay.dropSubscriber subscriber) subscriber.key
        { relay.opened subscriber.key with
          sinks := (relay.opened subscriber.key).sinks.filter (· ≠ subscriber.id) } := by
  let left : Relay := { relay with queues := relay.queues.erase subscriber.id }
  cases there : relay.stream? subscriber.key with
  | none =>
    have eq : relay.dropSubscriber subscriber = left := by
      have absent : left.stream? subscriber.key = none := there
      simp only [dropSubscriber, left, absent]
    rw [eq, opened_of_none there]
    exact ⟨rfl, rfl, (Changes.none there).of_streams rfl rfl rfl⟩
  | some stream =>
    have present : left.stream? subscriber.key = some stream := there
    have eq : relay.dropSubscriber subscriber =
        left.settle subscriber.key { stream with sinks := stream.sinks.filter (· ≠ subscriber.id) } := by
      simp only [dropSubscriber, left, present]
    obtain ⟨nextId, queues⟩ := left.settle_nextId subscriber.key
      { stream with sinks := stream.sinks.filter (· ≠ subscriber.id) }
    rw [eq, opened_of_some there]
    refine ⟨nextId, queues, ?_⟩
    have settled : Changes left _ subscriber.key { stream with sinks := stream.sinks.filter (· ≠ subscriber.id) } :=
      changes_settle ascending present rfl
    exact ⟨settled.here, settled.elsewhere, settled.ascending, settled.capacity, settled.serial, settled.nextSerial,
      settled.numbered⟩

theorem receive_eq (relay : Relay) (subscriber : Subscriber) :
    ∃ queues, (relay.receive subscriber).1 = { relay with queues } := by
  unfold receive
  split <;> exact ⟨_, rfl⟩

/-- A stream as it has to be by the history of its key. -/
structure Portrays (history : History) (key : String) (stream : LiveStream) : Prop where
  publisher : stream.publisher = (history.claim? key).map (·.id)
  serial : ∀ claim, history.claim? key = some claim → claim.serial = stream.serial
  sinks : stream.sinks = (history.followers key).reverse.map (·.id)

/-- Handles that are held are told apart by their numbers, and those of publishers by their keys. -/
structure Handles (history : History) (nextId : Nat) : Prop where
  positive : 0 < nextId
  numbered : ∀ operation ∈ history, operation.id < nextId
  publishers : (history.publishers.map (·.key)).Nodup
  subscribers : (history.subscribers.map (·.id)).Nodup

/-- A serial number belongs to one stream. -/
structure Serials (relay : Relay) : Prop where
  bounded : ∀ key stream, relay.stream? key = some stream → stream.serial < relay.nextSerial
  distinct : ∀ key other stream rival, relay.stream? key = some stream → relay.stream? other = some rival →
    stream.serial = rival.serial → key = other

structure Accounts (history : History) (relay : Relay) : Prop where
  ascending : relay.streams.Ascending
  used : ∀ key stream, relay.stream? key = some stream → stream.isUnused = false
  serials : Serials relay
  handles : Handles history relay.nextId
  portrait : ∀ key, Portrays history key (relay.opened key)

namespace Portrays
variable {history later : History} {key : String} {stream : LiveStream}

theorem claim?_eq_none (portrait : Portrays history key stream) (free : stream.publisher = none) :
    history.claim? key = none := by
  rw [portrait.publisher] at free
  exact Option.map_eq_none_iff.mp free

/-- Of a stream that nobody uses nothing is left to tell. -/
theorem of_unused (portrait : Portrays history key stream) (unused : stream.isUnused = true) (serial : Nat) :
    Portrays history key (.new serial) := by
  obtain ⟨free, alone⟩ := LiveStream.isUnused_iff.mp unused
  have none := portrait.claim?_eq_none free
  have sinks := portrait.sinks
  rw [alone] at sinks
  refine ⟨by rw [none]; rfl, ?_, sinks⟩
  intro claim held
  rw [none] at held
  cases held

theorem congr (portrait : Portrays history key stream) (claim : later.claim? key = history.claim? key)
    (followers : later.followers key = history.followers key) : Portrays later key stream :=
  ⟨claim ▸ portrait.publisher, claim ▸ portrait.serial, followers ▸ portrait.sinks⟩

end Portrays

namespace Handles
variable {history : History} {nextId : Nat}

theorem fresh (handles : Handles history nextId) {subscriber : Subscriber} (next : subscriber.id = nextId) :
    subscriber ∉ history.subscribers := by
  intro held
  have bound : subscriber.id < nextId := handles.numbered _ (History.subscribed_of_mem held)
  omega

theorem claim?_eq_some_iff (handles : Handles history nextId) {key : String} {claim : Publisher} :
    history.claim? key = some claim ↔ claim ∈ history.publishers ∧ claim.key = key := by
  constructor
  · intro found
    exact ⟨List.mem_of_find?_eq_some found, by simpa using List.find?_some found⟩
  · rintro ⟨held, rfl⟩
    have some : (history.claim? claim.key).isSome := List.find?_isSome.mpr ⟨claim, held, by simp⟩
    obtain ⟨other, found⟩ := Option.isSome_iff_exists.mp some
    have same : other.key = claim.key := by simpa using List.find?_some found
    exact List.inj_on_of_nodup_map handles.publishers (List.mem_of_find?_eq_some found) held same ▸ found

theorem eq_of_id (handles : Handles history nextId) {first second : Subscriber}
    (held : first ∈ history.subscribers) (also : second ∈ history.subscribers) (same : first.id = second.id) :
    first = second :=
  List.inj_on_of_nodup_map handles.subscribers held also same

theorem claim?_unpublished (handles : Handles history nextId) {claim : Publisher} (held : claim ∈ history.publishers) :
    History.claim? claim.key (.unpublished claim :: history) = none := by
  rw [History.claim?, List.find?_eq_none]
  intro other member same
  obtain ⟨still, different⟩ := List.mem_filter.mp member
  have equal : other = claim := List.inj_on_of_nodup_map handles.publishers still held (by simpa using same)
  simp [equal] at different

theorem use (handles : Handles history nextId) {operation : Operation} (numbered : operation.id < nextId)
    (publishers : History.publishers (operation :: history) = history.publishers)
    (subscribers : History.subscribers (operation :: history) = history.subscribers) :
    Handles (operation :: history) nextId := by
  refine ⟨handles.positive, ?_, publishers ▸ handles.publishers, subscribers ▸ handles.subscribers⟩
  intro other member
  rcases List.mem_cons.mp member with rfl | before
  · exact numbered
  · exact handles.numbered other before

theorem publish (handles : Handles history nextId) {claim : Publisher} (next : claim.id = nextId)
    (free : history.claim? claim.key = none) : Handles (.published claim :: history) (nextId + 1) := by
  refine ⟨Nat.succ_pos _, ?_, List.nodup_cons.mpr ⟨?_, handles.publishers⟩, handles.subscribers⟩
  · intro operation member
    rcases List.mem_cons.mp member with rfl | before
    · show claim.id < nextId + 1
      omega
    · exact Nat.lt_succ_of_lt (handles.numbered operation before)
  · intro member
    obtain ⟨other, held, same⟩ := List.mem_map.mp member
    have none := List.find?_eq_none.mp free other held
    simp [same] at none

theorem subscribe (handles : Handles history nextId) {subscriber : Subscriber} (next : subscriber.id = nextId) :
    Handles (.subscribed subscriber :: history) (nextId + 1) := by
  refine ⟨Nat.succ_pos _, ?_, handles.publishers, List.nodup_cons.mpr ⟨?_, handles.subscribers⟩⟩
  · intro operation member
    rcases List.mem_cons.mp member with rfl | before
    · show subscriber.id < nextId + 1
      omega
    · exact Nat.lt_succ_of_lt (handles.numbered operation before)
  · intro member
    obtain ⟨other, held, (same : other.id = subscriber.id)⟩ := List.mem_map.mp member
    have bound : other.id < nextId := handles.numbered _ (History.subscribed_of_mem held)
    omega

theorem unpublish (handles : Handles history nextId) {claim : Publisher} (held : claim ∈ history.publishers) :
    Handles (.unpublished claim :: history) nextId := by
  refine ⟨handles.positive, ?_, handles.publishers.sublist (List.filter_sublist.map _), handles.subscribers⟩
  intro operation member
  rcases List.mem_cons.mp member with rfl | before
  · exact handles.numbered (.published claim) (History.published_of_mem held)
  · exact handles.numbered operation before

theorem unsubscribe (handles : Handles history nextId) {subscriber : Subscriber}
    (held : subscriber ∈ history.subscribers) : Handles (.unsubscribed subscriber :: history) nextId := by
  refine ⟨handles.positive, ?_, handles.publishers, handles.subscribers.sublist (List.filter_sublist.map _)⟩
  intro operation member
  rcases List.mem_cons.mp member with rfl | before
  · exact handles.numbered (.subscribed subscriber) (History.subscribed_of_mem held)
  · exact handles.numbered operation before

end Handles

theorem Serials.changes {before after : Relay} {key : String} {stream : LiveStream} (serials : Serials before)
    (changes : Changes before after key stream) : Serials after := by
  have own : ∀ kept, after.stream? key = some kept → kept.serial < after.nextSerial ∧
      ∀ other rival, other ≠ key → before.stream? other = some rival → kept.serial ≠ rival.serial := by
    intro kept there
    obtain ⟨used, rfl⟩ := LiveStream.settled_eq_some_iff.mp (changes.here ▸ there)
    cases earlier : before.stream? key with
    | some stood =>
      have serial : stream.serial = stood.serial := by rw [changes.serial, opened_of_some earlier]
      refine ⟨?_, ?_⟩
      · have bound := serials.bounded key stood earlier
        have grown := changes.nextSerial
        omega
      · intro other rival different held same
        exact different (serials.distinct other key rival stood held earlier (serial ▸ same.symm))
    | none =>
      have serial : stream.serial = before.nextSerial := by rw [changes.serial, opened_of_none earlier]; rfl
      refine ⟨changes.numbered used earlier, ?_⟩
      intro other rival _ held same
      have bound := serials.bounded other rival held
      omega
  refine ⟨?_, ?_⟩
  · intro other kept there
    by_cases same : other = key
    · subst same
      exact (own kept there).1
    · rw [changes.elsewhere other same] at there
      exact Nat.lt_of_lt_of_le (serials.bounded other kept there) changes.nextSerial
  · intro one other kept rival there held equal
    by_cases first : one = key <;> by_cases second : other = key
    · rw [first, second]
    · subst first
      rw [changes.elsewhere other second] at held
      exact absurd equal ((own kept there).2 other rival second held)
    · subst second
      rw [changes.elsewhere one first] at there
      exact absurd equal.symm ((own rival held).2 one kept first there)
    · rw [changes.elsewhere one first] at there
      rw [changes.elsewhere other second] at held
      exact serials.distinct one other kept rival there held equal

namespace Accounts
variable {history : History} {relay after : Relay}

/-- One operation on one key: what is to be shown is that the changed stream fits the longer history, and that the
operation is none of the history of another key. -/
theorem changes {operation : Operation} {key : String} {stream : LiveStream} (accounts : Accounts history relay)
    (changes : Changes relay after key stream) (handles : Handles (operation :: history) after.nextId)
    (portrait : Portrays (operation :: history) key stream)
    (claims : ∀ other, key ≠ other → History.claim? other (operation :: history) = history.claim? other)
    (followers : ∀ other, key ≠ other → History.followers other (operation :: history) = history.followers other) :
    Accounts (operation :: history) after := by
  refine ⟨changes.ascending accounts.ascending, ?_, accounts.serials.changes changes, handles, ?_⟩
  · intro other kept there
    by_cases same : other = key
    · subst same
      exact (LiveStream.settled_eq_some_iff.mp (changes.here ▸ there)).2 ▸
        (LiveStream.settled_eq_some_iff.mp (changes.here ▸ there)).1
    · exact accounts.used other kept (changes.elsewhere other same ▸ there)
  · intro other
    by_cases same : other = key
    · subst same
      cases used : stream.isUnused with
      | false =>
        rw [opened_of_some (changes.here.trans (LiveStream.settled_of_used used))]
        exact portrait
      | true =>
        have gone : after.stream? other = none := by rw [changes.here, LiveStream.settled, used, if_pos rfl]
        rw [opened_of_none gone]
        exact portrait.of_unused used _
    · have before := (accounts.portrait other).congr (claims other (Ne.symm same)) (followers other (Ne.symm same))
      cases there : relay.stream? other with
      | some kept =>
        rw [opened_of_some ((changes.elsewhere other same).trans there)]
        rwa [opened_of_some there] at before
      | none =>
        rw [opened_of_none ((changes.elsewhere other same).trans there)]
        rw [opened_of_none there] at before
        exact before.of_unused rfl _

theorem claimed (accounts : Accounts history relay) {claim : Publisher} (held : claim ∈ history.publishers) :
    ∃ stream, relay.stream? claim.key = some stream ∧ stream.serial = claim.serial ∧
      stream.publisher = some claim.id := by
  have found := accounts.handles.claim?_eq_some_iff.mpr ⟨held, rfl⟩
  have portrait := accounts.portrait claim.key
  have publisher := portrait.publisher
  rw [found, Option.map_some] at publisher
  cases there : relay.stream? claim.key with
  | some stream =>
    rw [opened_of_some there] at portrait publisher
    exact ⟨stream, rfl, (portrait.serial claim found).symm, publisher⟩
  | none =>
    rw [opened_of_none there] at publisher
    cases publisher

theorem mem_sinks_iff (accounts : Accounts history relay) {subscriber : Subscriber}
    (held : subscriber ∈ history.subscribers) (key : String) :
    subscriber.id ∈ (relay.opened key).sinks ↔ subscriber ∈ history.followers key := by
  rw [(accounts.portrait key).sinks]
  constructor
  · intro member
    obtain ⟨other, follower, same⟩ := List.mem_map.mp member
    have present := List.mem_reverse.mp follower
    exact accounts.handles.eq_of_id (List.mem_filter.mp present).1 held same ▸ present
  · intro follower
    exact List.mem_map.mpr ⟨subscriber, List.mem_reverse.mpr follower, rfl⟩

theorem nodup_sinks (accounts : Accounts history relay) (key : String) : (relay.opened key).sinks.Nodup := by
  rw [(accounts.portrait key).sinks, List.map_reverse]
  exact List.nodup_reverse.mpr (accounts.handles.subscribers.sublist (List.filter_sublist.map _))

theorem new (capacity : Nat) : Accounts [] (Relay.new capacity) where
  ascending := .nil
  used := fun _ _ there => nomatch there
  serials := ⟨fun _ _ there => (nomatch there), fun _ _ _ _ there => (nomatch there)⟩
  handles := ⟨Nat.one_pos, fun _ member => (nomatch member), List.nodup_nil, List.nodup_nil⟩
  portrait := fun _ => ⟨rfl, fun _ held => (nomatch held), rfl⟩

theorem step {operation : Operation} (accounts : Accounts history relay) (next : Step history relay operation after) :
    Accounts (operation :: history) after := by
  have handles := accounts.handles
  cases next with
  | @publish key _ claim given =>
    obtain ⟨free, rfl, nextId, _, changes⟩ := publish_ok given
    have portrait := accounts.portrait key
    have unclaimed := portrait.claim?_eq_none free
    refine accounts.changes changes (nextId ▸ handles.publish rfl unclaimed) ?_ ?_ fun _ _ => rfl
    · refine ⟨?_, ?_, portrait.sinks⟩
      · rw [History.claim?_published, if_pos rfl]; rfl
      · intro claim held
        rw [History.claim?_published, if_pos rfl] at held
        cases held
        rfl
    · intro other different
      rw [History.claim?_published, if_neg different]
  | @refuse key error refused =>
    refine ⟨accounts.ascending, accounts.used, accounts.serials, handles.use handles.positive rfl rfl, ?_⟩
    exact fun other => (accounts.portrait other).congr rfl rfl
  | @subscribe key _ subscriber accepted =>
    obtain ⟨rfl, nextId, _, changes⟩ := subscribe_eq accepted
    have fresh : (⟨key, relay.nextId⟩ : Subscriber) ∉ history.subscribers := handles.fresh rfl
    have portrait := accounts.portrait key
    refine accounts.changes changes (nextId ▸ handles.subscribe rfl) ?_ (fun _ _ => rfl) ?_
    · refine ⟨portrait.publisher, portrait.serial, ?_⟩
      rw [History.followers_subscribed fresh, if_pos rfl, List.reverse_cons, List.map_append, ← portrait.sinks]
      rfl
    · intro other different
      rw [History.followers_subscribed fresh, if_neg different]
  | @send claim held packet =>
    obtain ⟨stream, there, serial, _⟩ := accounts.claimed held
    obtain ⟨nextId, changes⟩ := send_changes there serial (accounts.used _ _ there) packet
    obtain ⟨sameSerial, publisher, sinks⟩ := stream.keep_members packet
    have numbered : claim.id < relay.nextId := handles.numbered _ (History.published_of_mem held)
    refine accounts.changes changes (nextId ▸ handles.use numbered rfl rfl) ?_ (fun _ _ => rfl) fun _ _ => rfl
    have portrait := accounts.portrait claim.key
    rw [opened_of_some there] at portrait
    exact ⟨publisher.trans portrait.publisher, fun other found => (portrait.serial other found).trans sameSerial.symm,
      sinks.trans portrait.sinks⟩
  | @receive subscriber _ delivery held taken =>
    obtain ⟨queues, eq⟩ := relay.receive_eq subscriber
    have numbered : subscriber.id < relay.nextId := handles.numbered _ (History.subscribed_of_mem held)
    rw [taken] at eq
    subst eq
    refine ⟨accounts.ascending, accounts.used, ⟨accounts.serials.bounded, accounts.serials.distinct⟩,
      handles.use numbered rfl rfl, ?_⟩
    exact fun other => (accounts.portrait other).congr rfl rfl
  | @unpublish claim held =>
    obtain ⟨stream, there, _, publisher⟩ := accounts.claimed held
    obtain ⟨nextId, _, changes⟩ := dropPublisher_changes accounts.ascending there publisher
    have unclaimed := handles.claim?_unpublished held
    refine accounts.changes changes (nextId ▸ handles.unpublish held) ?_ ?_ ?_
    · refine ⟨by rw [unclaimed]; rfl, ?_, by rw [History.followers_unpublished, if_pos rfl]; rfl⟩
      intro other found
      rw [unclaimed] at found
      cases found
    · exact fun other different => History.claim?_unpublished_of_ne different
    · intro other different
      rw [History.followers_unpublished, if_neg different]
  | @unsubscribe subscriber held =>
    obtain ⟨nextId, _, changes⟩ := dropSubscriber_changes accounts.ascending subscriber
    have portrait := accounts.portrait subscriber.key
    refine accounts.changes changes (nextId ▸ handles.unsubscribe held) ?_ (fun _ _ => rfl) ?_
    · refine ⟨portrait.publisher, portrait.serial, ?_⟩
      show (relay.opened subscriber.key).sinks.filter _ = _
      rw [History.followers_unsubscribed, portrait.sinks, List.filter_map, ← List.filter_reverse]
      refine congrArg _ (List.filter_congr fun other member => ?_)
      have follower := (List.mem_filter.mp (List.mem_reverse.mp member)).1
      have same : other.id = subscriber.id ↔ other = subscriber :=
        ⟨handles.eq_of_id follower held, congrArg _⟩
      simp [same]
    · intro other different
      rw [History.followers_unsubscribed, List.filter_eq_self]
      intro follower member
      have key : follower.key = other := (by simpa using (List.mem_filter.mp member).2 : _ ∧ _).1
      have distinct : follower ≠ subscriber := by
        rintro rfl
        exact different key
      simpa using distinct

end Accounts

theorem Run.accounts {capacity : Nat} {history : History} {relay : Relay} (run : Run capacity history relay) :
    Accounts history relay := by
  induction run with
  | new => exact .new capacity
  | step run next ih => exact ih.step next

namespace Accounts
variable {history : History} {relay : Relay}

theorem hasPublisher_eq (relay : Relay) (key : String) :
    relay.hasPublisher key = (relay.opened key).publisher.isSome := by
  cases there : relay.stream? key with
  | some stream => simp [hasPublisher, there, opened_of_some there]
  | none => simp [hasPublisher, there, opened_of_none there, LiveStream.new]

theorem subscriberCount_eq (relay : Relay) (key : String) :
    relay.subscriberCount key = (relay.opened key).sinks.length := by
  cases there : relay.stream? key with
  | some stream => simp [subscriberCount, there, opened_of_some there]
  | none => simp [subscriberCount, there, opened_of_none there, LiveStream.new]

theorem publishers_le_one (accounts : Accounts history relay) (key : String) :
    (history.publishers.filter (·.key = key)).length ≤ 1 := by
  have nodup : ((history.publishers.filter (·.key = key)).map (·.key)).Nodup :=
    accounts.handles.publishers.sublist (List.filter_sublist.map _)
  have same : (history.publishers.filter (·.key = key)).map (·.key) =
      List.replicate (history.publishers.filter (·.key = key)).length key := by
    rw [List.eq_replicate_iff, List.length_map]
    refine ⟨rfl, fun other member => ?_⟩
    obtain ⟨claim, held, rfl⟩ := List.mem_map.mp member
    simpa using (List.mem_filter.mp held).2
  rw [same, List.nodup_replicate] at nodup
  exact nodup

theorem publisher_isSome_iff (accounts : Accounts history relay) (key : String) :
    (relay.opened key).publisher.isSome = true ↔ ∃ claim ∈ history.publishers, claim.key = key := by
  rw [(accounts.portrait key).publisher, Option.isSome_map, Option.isSome_iff_exists]
  simp only [accounts.handles.claim?_eq_some_iff]

theorem publish_refused_iff (relay : Relay) (key : String) :
    relay.publish key = .error (.alreadyPublishing key) ↔ (relay.opened key).publisher.isSome = true := by
  rw [Option.isSome_iff_ne_none]
  constructor
  · exact fun refused => (publish_error refused).2.1
  · intro taken
    cases answer : relay.publish key with
    | ok given => exact absurd (publish_ok answer).1 taken
    | error error => rw [(publish_error answer).1]

/-- Every stream in the registry is in use, so a key is there exactly if it has a publisher or subscribers. -/
theorem stream?_isSome_iff (accounts : Accounts history relay) (key : String) :
    (relay.stream? key).isSome = true ↔ relay.hasPublisher key = true ∨ relay.subscriberCount key ≠ 0 := by
  rw [hasPublisher_eq, subscriberCount_eq]
  cases there : relay.stream? key with
  | some stream =>
    have used := accounts.used key stream there
    rw [opened_of_some there]
    rw [Bool.eq_false_iff, ne_eq, LiveStream.isUnused_iff, not_and_or] at used
    simpa [Option.isSome_iff_ne_none] using used
  | none => simp [opened_of_none there, LiveStream.new]

theorem streamCount_eq (accounts : Accounts history relay) :
    {key | relay.hasPublisher key = true ∨ relay.subscriberCount key ≠ 0}.encard = relay.streamCount := by
  have nodup : (relay.streams.map Prod.fst).Nodup := by
    refine List.Pairwise.map _ ?_ accounts.ascending
    intro first second before same
    rw [same] at before
    simp at before
  have keys : {key | relay.hasPublisher key = true ∨ relay.subscriberCount key ≠ 0} =
      ((relay.streams.map Prod.fst).toFinset : Set String) := by
    ext key
    rw [Set.mem_ofPred_eq, ← accounts.stream?_isSome_iff, Option.isSome_iff_exists]
    simp [stream?, accounts.ascending.mem_iff_find?]
  rw [keys, Set.encard_coe_eq_coe_finsetCard, List.toFinset_card_of_nodup nodup, List.length_map]
  rfl

theorem dropSubscriber_cutOff (accounts : Accounts history relay) {subscriber : Subscriber}
    (held : subscriber ∈ history.subscribers) (cutOff : subscriber ∉ history.followers subscriber.key) :
    (relay.dropSubscriber subscriber).streams = relay.streams := by
  have absent := mt (accounts.mem_sinks_iff held subscriber.key).mp cutOff
  cases there : relay.stream? subscriber.key with
  | none =>
    simp only [stream?] at there
    simp only [dropSubscriber, stream?, there]
  | some stream =>
    rw [opened_of_some there] at absent
    have sinks : stream.sinks.filter (· ≠ subscriber.id) = stream.sinks := by
      rw [List.filter_eq_self]
      intro id member
      have different : id ≠ subscriber.id := by
        rintro rfl
        exact absent member
      simpa using different
    have used := accounts.used _ _ there
    simp only [stream?] at there
    simp only [dropSubscriber, stream?, there, sinks, settle, used, setStream]
    exact accounts.ascending.insert_of_find? there

theorem streams_eq_nil (accounts : Accounts history relay) (publishers : history.publishers = [])
    (subscribers : history.subscribers = []) : relay.streams = [] := by
  refine accounts.ascending.ext .nil fun key => ?_
  have unused : ¬ (relay.stream? key).isSome = true := by
    rw [accounts.stream?_isSome_iff, hasPublisher_eq, subscriberCount_eq, accounts.publisher_isSome_iff,
      (accounts.portrait key).sinks]
    simp [publishers, subscribers, History.followers]
  exact Option.not_isSome_iff_eq_none.mp unused

end Accounts

/-- After every run, whatever the clients and keys: a key has one publisher at most, and it has one exactly if the
registry says so and refuses another, which changes nothing. The stream that a publisher holds is the one that the
registry has under its key, and under no other. The subscribers of a key are counted since the last departure, and a
subscriber from before it can leave without a trace. -/
theorem registry_accounts_for_handles {capacity : Nat} {history : History} {relay : Relay}
    (run : Run capacity history relay) :
    (∀ key,
      (history.publishers.filter (·.key = key)).length ≤ 1 ∧
      (relay.hasPublisher key = true ↔ ∃ claim ∈ history.publishers, claim.key = key) ∧
      (relay.publish key = .error (.alreadyPublishing key) ↔ ∃ claim ∈ history.publishers, claim.key = key) ∧
      (∀ error, relay.publish key = .error error →
        error = .alreadyPublishing key ∧ (relay.openStream key).1 = relay) ∧
      relay.subscriberCount key = (history.subscribers.filter fun subscriber =>
        subscriber.key = key ∧ subscriber ∈ History.joined (history.sinceDeparture key)).length) ∧
    (∀ claim ∈ history.publishers, ∃ stream,
      relay.stream? claim.key = some stream ∧ stream.serial = claim.serial ∧ stream.publisher = some claim.id ∧
      ∀ other rival, relay.stream? other = some rival → rival.serial = claim.serial → other = claim.key) ∧
    {key | relay.hasPublisher key = true ∨ relay.subscriberCount key ≠ 0}.encard = relay.streamCount ∧
    (∀ subscriber ∈ history.subscribers, subscriber ∉ History.joined (history.sinceDeparture subscriber.key) →
      (relay.dropSubscriber subscriber).streams = relay.streams) ∧
    (history.publishers = [] → history.subscribers = [] → relay.streams = []) := by
  have accounts := run.accounts
  refine ⟨fun key => ⟨accounts.publishers_le_one key, ?_, ?_, ?_, ?_⟩, ?_, accounts.streamCount_eq, ?_,
    accounts.streams_eq_nil⟩
  · rw [Accounts.hasPublisher_eq, accounts.publisher_isSome_iff]
  · rw [Accounts.publish_refused_iff, accounts.publisher_isSome_iff]
  · intro error refused
    obtain ⟨cause, _, unchanged⟩ := publish_error refused
    exact ⟨cause, unchanged⟩
  · rw [Accounts.subscriberCount_eq, (accounts.portrait key).sinks, List.length_map, List.length_reverse]
    rfl
  · intro claim held
    obtain ⟨stream, there, serial, publisher⟩ := accounts.claimed held
    refine ⟨stream, there, serial, publisher, ?_⟩
    intro other rival present same
    exact accounts.serials.distinct other claim.key rival stream present there (same.trans serial.symm)
  · intro subscriber held late
    refine accounts.dropSubscriber_cutOff held fun follower => late ?_
    simpa using (List.mem_filter.mp follower).2

/-- A publisher left while somebody watched, and another took its place. -/
def handover : History :=
  [.published ⟨"live/cam", 3, 2⟩, .unpublished ⟨"live/cam", 1, 1⟩, .subscribed ⟨"live/cam", 2⟩,
    .published ⟨"live/cam", 1, 1⟩]

def handedOver : Relay :=
  ⟨16, 4, 3, [("live/cam", ⟨2, some 3, [], none, none, none⟩)], [(2, .ofList [])]⟩

theorem Run.handedOver : Run 16 handover handedOver := by
  have claimed := Run.step (Run.new : Run 16 _ _) (.publish (show Relay.publish _ "live/cam" = _ from rfl))
  have joined := Run.step claimed (.subscribe (show Relay.subscribe _ "live/cam" = _ from rfl))
  have vacated := Run.step joined (.unpublish (show ⟨"live/cam", 1, 1⟩ ∈ _ by decide))
  exact Run.step vacated (.publish (show Relay.publish _ "live/cam" = _ from rfl))

/-- The subscriber of the first publisher is counted no more, and its leaving does not touch the second. -/
theorem handover_leaves_no_trace :
    Run 16 handover handedOver ∧ handedOver.hasPublisher "live/cam" = true ∧
      handedOver.publish "live/cam" = .error (.alreadyPublishing "live/cam") ∧
      handedOver.subscriberCount "live/cam" = 0 ∧
      (handedOver.dropSubscriber ⟨"live/cam", 2⟩).streams = handedOver.streams := by
  obtain ⟨keys, _, _, late, _⟩ := registry_accounts_for_handles Run.handedOver
  obtain ⟨_, publisher, refused, _, count⟩ := keys "live/cam"
  have held : ∃ claim ∈ handover.publishers, claim.key = "live/cam" := ⟨_, List.mem_cons_self, rfl⟩
  have none : (handover.subscribers.filter fun subscriber =>
      subscriber.key = "live/cam" ∧ subscriber ∈ History.joined (handover.sinceDeparture "live/cam")).length = 0 := by
    decide
  exact ⟨Run.handedOver, publisher.mpr held, refused.mpr held, count.trans none, late _ (by decide) (by decide)⟩

end Relay
end RtmpRelay
