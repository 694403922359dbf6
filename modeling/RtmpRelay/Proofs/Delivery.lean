import RtmpRelay.Proofs.Registry

/-! What a subscriber finds in its queue. The history alone says it: the packets that were replayed when it came, then
all that was sent on its key until a publisher left, less what found the queue full and what has been taken. The
invariant carries the packets kept for later subscribers beside the queues, for they make the start of the next one. -/

namespace RtmpRelay

namespace Packet

def startsWithString (packet : Packet) : Bool :=
  match Amf.Amf0.decode packet.payload with
  | .ok (.string _, _) => true
  | _ => false

def isNamedMetadata (packet : Packet) : Bool :=
  packet.kind = .metadata && packet.startsWithString

/-- Whether the packet is a decoder configuration of the given kind. -/
def configures (kind : PacketKind) (packet : Packet) : Bool :=
  packet.kind = kind && packet.isSequenceHeader

end Packet

namespace Relay

def Operation.takenBy? (subscriber : Subscriber) : Operation → Option Packet
  | .received taker (.packet packet) => if taker = subscriber then some packet else none
  | _ => none

namespace History

/-- What the holder of a claim has sent, the latest first. -/
def sentBy (claim : Publisher) (history : History) : List Packet :=
  history.filterMap (Operation.sentBy? claim)

/-- The last packet of a sort among those sent by the publisher who holds the key now. -/
def latest (key : String) (sort : Packet → Bool) (history : History) : Option Packet :=
  (history.claim? key).bind fun claim => (history.sentBy claim).find? sort

/-- What a subscriber of the key would find in its queue at once. -/
def replay (key : String) (history : History) : List Packet :=
  (history.latest key Packet.isNamedMetadata).toList ++ (history.latest key (Packet.configures .audio)).toList ++
    (history.latest key (Packet.configures .video)).toList

/-- What waits in the queue of a subscriber that has room for so many packets. -/
def backlog (room : Nat) (subscriber : Subscriber) : History → List Packet
  | [] => []
  | .subscribed other :: earlier =>
    if other = subscriber then replay subscriber.key earlier else backlog room subscriber earlier
  | .sent claim packet :: earlier =>
    let held := backlog room subscriber earlier
    if claim.key = subscriber.key ∧ subscriber ∈ followers subscriber.key earlier ∧ held.length < room then
      held ++ [packet]
    else held
  | .received other _ :: earlier =>
    if other = subscriber then (backlog room subscriber earlier).tail else backlog room subscriber earlier
  | .published _ :: earlier | .refused _ :: earlier | .unpublished _ :: earlier | .unsubscribed _ :: earlier =>
    backlog room subscriber earlier

/-- What the subscriber gets next. It has to wait if nothing is there, unless a publisher of its key has left. -/
def due (room : Nat) (subscriber : Subscriber) (history : History) : Delivery :=
  match history.backlog room subscriber with
  | packet :: _ => .packet packet
  | [] => if subscriber ∈ history.followers subscriber.key then .empty else .closed

/-- All that was meant for the subscriber, in order: the replay, and what was sent while it followed its key. -/
def offered (subscriber : Subscriber) : History → List Packet
  | [] => []
  | .subscribed other :: earlier =>
    if other = subscriber then replay subscriber.key earlier else offered subscriber earlier
  | .sent claim packet :: earlier =>
    if claim.key = subscriber.key ∧ subscriber ∈ followers subscriber.key earlier then
      offered subscriber earlier ++ [packet]
    else offered subscriber earlier
  | .published _ :: earlier | .refused _ :: earlier | .received _ _ :: earlier | .unpublished _ :: earlier
  | .unsubscribed _ :: earlier => offered subscriber earlier

/-- What the subscriber has taken, in order. -/
def taken (subscriber : Subscriber) (history : History) : List Packet :=
  (history.filterMap (Operation.takenBy? subscriber)).reverse

variable {history : History}

theorem length_replay_le (key : String) (history : History) : (history.replay key).length ≤ 3 := by
  have one : ∀ kept : Option Packet, kept.toList.length ≤ 1 := by
    intro kept
    cases kept <;> simp
  have metadata := one (history.latest key Packet.isNamedMetadata)
  have audio := one (history.latest key (Packet.configures .audio))
  have video := one (history.latest key (Packet.configures .video))
  simp only [replay, List.length_append]
  omega

theorem length_backlog_le {room : Nat} (enough : 3 ≤ room) (subscriber : Subscriber) (history : History) :
    (history.backlog room subscriber).length ≤ room := by
  induction history with
  | nil => exact Nat.zero_le room
  | cons operation earlier ih =>
    cases operation with
    | subscribed other =>
      rw [backlog]
      split
      · exact Nat.le_trans (length_replay_le _ _) enough
      · exact ih
    | sent claim packet =>
      rw [backlog]
      split
      next fits =>
        rw [List.length_append, List.length_singleton]
        exact fits.2.2
      next => exact ih
    | received other delivery =>
      rw [backlog]
      split
      · exact Nat.le_trans (by simp) ih
      · exact ih
    | published | refused | unpublished | unsubscribed => exact ih

theorem taken_of_idle {subscriber : Subscriber} (idle : ∀ delivery, .received subscriber delivery ∉ history) :
    history.taken subscriber = [] := by
  rw [taken, List.reverse_eq_nil_iff, List.filterMap_eq_nil_iff]
  intro operation member
  cases operation with
  | received taker delivery =>
    have different : taker ≠ subscriber := by
      rintro rfl
      exact idle delivery member
    cases delivery <;> simp [Operation.takenBy?, different]
  | published | refused | subscribed | sent | unpublished | unsubscribed => rfl

theorem taken_cons (subscriber : Subscriber) (operation : Operation) :
    taken subscriber (operation :: history) = history.taken subscriber ++ (operation.takenBy? subscriber).toList := by
  rw [taken, List.filterMap_cons]
  cases operation.takenBy? subscriber with
  | none => exact (List.append_nil _).symm
  | some packet => exact List.reverse_cons

theorem latest_of_unclaimed {key : String} (none : history.claim? key = none) (sort : Packet → Bool) :
    history.latest key sort = .none := by
  rw [latest, none, Option.bind_none]

theorem latest_published {claim : Publisher} (fresh : ∀ packet, .sent claim packet ∉ history) (key : String)
    (sort : Packet → Bool) :
    latest key sort (.published claim :: history) = if claim.key = key then none else history.latest key sort := by
  have silent : history.sentBy claim = [] := by
    rw [sentBy, List.filterMap_eq_nil_iff]
    intro operation member
    cases operation with
    | sent sender packet =>
      have different : sender ≠ claim := by
        rintro rfl
        exact fresh packet member
      simp [Operation.sentBy?, different]
    | published | refused | subscribed | received | unpublished | unsubscribed => rfl
  rw [latest, claim?_published]
  split
  · show (history.sentBy claim).find? sort = none
    rw [silent, List.find?_nil]
  · rfl

theorem latest_sent {nextId : Nat} (handles : Handles history nextId) {claim : Publisher}
    (held : claim ∈ history.publishers) (packet : Packet) (key : String) (sort : Packet → Bool) :
    latest key sort (.sent claim packet :: history) =
      if claim.key = key ∧ sort packet = true then some packet else history.latest key sort := by
  have unchanged : claim? key (.sent claim packet :: history) = history.claim? key := rfl
  rw [latest, unchanged, latest]
  cases found : history.claim? key with
  | none =>
    have elsewhere : claim.key ≠ key := by
      intro same
      rw [handles.claim?_eq_some_iff.mpr ⟨held, same⟩] at found
      cases found
    rw [if_neg fun both => elsewhere both.1]
    rfl
  | some holder =>
    have same : claim = holder ↔ claim.key = key := by
      constructor
      · rintro rfl
        exact (handles.claim?_eq_some_iff.mp found).2
      · intro here
        exact Option.some.inj ((handles.claim?_eq_some_iff.mpr ⟨held, here⟩).symm.trans found)
    rw [Option.bind_some, Option.bind_some]
    by_cases here : claim.key = key
    · obtain rfl := same.mpr here
      have first : sentBy claim (.sent claim packet :: history) = packet :: history.sentBy claim := by
        simp [sentBy, Operation.sentBy?]
      rw [first, List.find?_cons]
      cases sort packet <;> simp [here]
    · have others : sentBy holder (.sent claim packet :: history) = history.sentBy holder := by
        simp [sentBy, Operation.sentBy?, mt same.mp here]
      rw [others, if_neg fun both => here both.1]

theorem latest_unpublished {nextId : Nat} (handles : Handles history nextId) {claim : Publisher}
    (held : claim ∈ history.publishers) (key : String) (sort : Packet → Bool) :
    latest key sort (.unpublished claim :: history) = if claim.key = key then none else history.latest key sort := by
  by_cases here : claim.key = key
  · subst here
    rw [if_pos rfl, latest_of_unclaimed (handles.claim?_unpublished held)]
  · rw [if_neg here, latest, claim?_unpublished_of_ne here]
    rfl

end History

theorem queue_insert_self {after : Relay} {queues : Assoc Nat (Queue Packet)} {id : Nat} {queue : Queue Packet}
    (changed : after.queues = queues.insert id queue) : after.queue id = queue := by
  rw [Relay.queue, changed, Assoc.find?_insert_self, Option.getD_some]

theorem queue_insert_of_ne {relay after : Relay} {id other : Nat} {queue : Queue Packet}
    (changed : after.queues = relay.queues.insert id queue) (different : other ≠ id) :
    after.queue other = relay.queue other := by
  rw [Relay.queue, changed, Assoc.find?_insert_of_ne different, Relay.queue]

theorem queue_enqueue (relay : Relay) (packet : Packet) (id other : Nat) :
    ((relay.enqueue packet id).queue other).toList =
      if other = id ∧ (relay.queue other).toList.length < relay.capacity then (relay.queue other).toList ++ [packet]
      else (relay.queue other).toList := by
  unfold enqueue
  dsimp only
  rw [Queue.size_eq_length]
  split
  next fits =>
    by_cases same : other = id
    · subst same
      rw [queue_insert_self rfl, Queue.toList_push, if_pos ⟨rfl, fits⟩]
    · rw [queue_insert_of_ne rfl same, if_neg fun both => same both.1]
  next full =>
    rw [if_neg]
    rintro ⟨rfl, fits⟩
    exact full fits

theorem queue_foldl_enqueue (packet : Packet) (ids : List Nat) (distinct : ids.Nodup) (relay : Relay) (other : Nat) :
    ((ids.foldl (fun relay id => relay.enqueue packet id) relay).queue other).toList =
      if other ∈ ids ∧ (relay.queue other).toList.length < relay.capacity then (relay.queue other).toList ++ [packet]
      else (relay.queue other).toList := by
  induction ids generalizing relay with
  | nil => simp
  | cons id ids ih =>
    obtain ⟨absent, further⟩ := List.nodup_cons.mp distinct
    obtain ⟨queues, enqueued⟩ := relay.enqueue_eq packet id
    have capacity : (relay.enqueue packet id).capacity = relay.capacity := by rw [enqueued]
    rw [List.foldl_cons, ih further, capacity, queue_enqueue]
    by_cases same : other = id
    · subst same
      simp [absent]
    · simp [same]

theorem queue_receive (relay : Relay) (subscriber : Subscriber) (other : Nat) :
    ((relay.receive subscriber).1.queue other).toList =
      if other = subscriber.id then (relay.queue other).toList.tail else (relay.queue other).toList := by
  rw [receive]
  cases popped : (relay.queue subscriber.id).pop? with
  | none =>
    show (relay.queue other).toList = _
    split
    next same =>
      subst same
      rw [Queue.pop?_eq_none_iff.mp popped, List.tail_nil]
    next => rfl
  | some front =>
    obtain ⟨packet, rest⟩ := front
    dsimp only
    by_cases same : other = subscriber.id
    · subst same
      rw [if_pos rfl, queue_insert_self rfl, Queue.toList_of_pop? popped, List.tail_cons]
    · rw [if_neg same, queue_insert_of_ne rfl same]

/-- A packet that is taken was the first in the queue. -/
theorem receive_packet {relay after : Relay} {subscriber : Subscriber} {packet : Packet}
    (taken : relay.receive subscriber = (after, .packet packet)) :
    (relay.queue subscriber.id).toList = packet :: (after.queue subscriber.id).toList := by
  unfold receive at taken
  split at taken
  next first rest popped =>
    cases taken
    rw [Queue.toList_of_pop? popped, queue_insert_self rfl]
  next => split at taken <;> cases taken

/-- What a stream keeps for later subscribers, as the history of its key has it. -/
structure Caches (history : History) (key : String) (stream : LiveStream) : Prop where
  metadata : stream.metadata = history.latest key Packet.isNamedMetadata
  audioHeader : stream.audioHeader = history.latest key (Packet.configures .audio)
  videoHeader : stream.videoHeader = history.latest key (Packet.configures .video)

structure Stocked (room : Nat) (history : History) (relay : Relay) : Prop where
  capacity : relay.capacity = room
  caches : ∀ key stream, relay.stream? key = some stream → Caches history key stream
  queues : ∀ subscriber ∈ history.subscribers, (relay.queue subscriber.id).toList = history.backlog room subscriber

theorem Caches.of_unclaimed {history : History} {key : String} (unclaimed : history.claim? key = none) (serial : Nat) :
    Caches history key (.new serial) :=
  ⟨(History.latest_of_unclaimed unclaimed _).symm, (History.latest_of_unclaimed unclaimed _).symm,
    (History.latest_of_unclaimed unclaimed _).symm⟩

theorem Caches.congr {history later : History} {key : String} {stream : LiveStream} (caches : Caches history key stream)
    (same : ∀ sort, later.latest key sort = history.latest key sort) : Caches later key stream :=
  ⟨(same _).symm ▸ caches.metadata, (same _).symm ▸ caches.audioHeader, (same _).symm ▸ caches.videoHeader⟩

theorem Caches.replay_eq {history : History} {key : String} {stream : LiveStream} (caches : Caches history key stream) :
    stream.replay = history.replay key := by
  rw [LiveStream.replay, caches.metadata, caches.audioHeader, caches.videoHeader, History.replay]

theorem startsWithString_eq (packet : Packet) :
    packet.startsWithString = (Flv.metadataName packet.payload).toOption.isSome := by
  rw [Packet.startsWithString, Flv.metadataName]
  cases Amf.Amf0.decode packet.payload with
  | error error => rfl
  | ok answer =>
    obtain ⟨value, size⟩ := answer
    cases value <;> rfl

theorem keep_caches (stream : LiveStream) (packet : Packet) :
    (stream.keep packet).metadata = (if packet.isNamedMetadata = true then some packet else stream.metadata) ∧
      (stream.keep packet).audioHeader =
        (if packet.configures .audio = true then some packet else stream.audioHeader) ∧
      (stream.keep packet).videoHeader =
        (if packet.configures .video = true then some packet else stream.videoHeader) := by
  unfold LiveStream.keep
  cases kind : packet.kind with
  | metadata =>
    rw [← startsWithString_eq]
    cases named : packet.startsWithString <;> simp [Packet.isNamedMetadata, Packet.configures, kind, named]
  | audio | video =>
    cases header : packet.isSequenceHeader <;> simp [Packet.isNamedMetadata, Packet.configures, kind, header]

theorem Caches.sent {history : History} {nextId : Nat} {claim : Publisher} {stream : LiveStream}
    (caches : Caches history claim.key stream) (handles : Handles history nextId) (held : claim ∈ history.publishers)
    (packet : Packet) : Caches (.sent claim packet :: history) claim.key (stream.keep packet) := by
  obtain ⟨metadata, audioHeader, videoHeader⟩ := keep_caches stream packet
  have last : ∀ sort, History.latest claim.key sort (.sent claim packet :: history) =
      if sort packet = true then some packet else history.latest claim.key sort := by
    intro sort
    rw [History.latest_sent handles held]
    simp only [true_and]
  refine ⟨?_, ?_, ?_⟩
  · rw [metadata, last, caches.metadata]
  · rw [audioHeader, last, caches.audioHeader]
  · rw [videoHeader, last, caches.videoHeader]

theorem Accounts.reaches_iff {history : History} {relay : Relay} (accounts : Accounts history relay)
    {subscriber : Subscriber} (member : subscriber ∈ history.subscribers) (key : String) :
    subscriber.id ∈ (relay.opened key).sinks ↔
      key = subscriber.key ∧ subscriber ∈ history.followers subscriber.key := by
  rw [accounts.mem_sinks_iff member]
  constructor
  · intro follower
    have same := (History.mem_followers_iff.mp follower).2.1
    exact ⟨same.symm, same ▸ follower⟩
  · rintro ⟨same, follower⟩
    exact same ▸ follower

namespace Stocked
variable {room : Nat} {history : History} {relay after : Relay}

theorem opened (stocked : Stocked room history relay) (accounts : Accounts history relay) (key : String) :
    Caches history key (relay.opened key) := by
  cases there : relay.stream? key with
  | some stream =>
    rw [opened_of_some there]
    exact stocked.caches key stream there
  | none =>
    have portrait := accounts.portrait key
    rw [opened_of_none there] at portrait ⊢
    exact .of_unclaimed (portrait.claim?_eq_none rfl) _

theorem caches_of_changes {operation : Operation} {key : String} {stream : LiveStream}
    (stocked : Stocked room history relay) (changes : Changes relay after key stream)
    (here : Caches (operation :: history) key stream)
    (elsewhere : ∀ other, key ≠ other → ∀ sort,
      History.latest other sort (operation :: history) = history.latest other sort)
    (other : String) (kept : LiveStream) (there : after.stream? other = some kept) :
    Caches (operation :: history) other kept := by
  by_cases same : other = key
  · subst same
    obtain ⟨_, rfl⟩ := LiveStream.settled_eq_some_iff.mp (changes.here ▸ there)
    exact here
  · rw [changes.elsewhere other same] at there
    exact (stocked.caches other kept there).congr (elsewhere other (Ne.symm same))

theorem new (capacity : Nat) : Stocked (max capacity 4) [] (Relay.new capacity) where
  capacity := rfl
  caches := fun _ _ there => (nomatch there)
  queues := fun _ member => (nomatch member)

/-- What is kept of a stream stays if only those who take part change. -/
theorem keeps {operation : Operation} (stocked : Stocked room history relay) (accounts : Accounts history relay)
    {key : String} {stream : LiveStream} (changes : Changes relay after key stream)
    (metadata : stream.metadata = (relay.opened key).metadata)
    (audioHeader : stream.audioHeader = (relay.opened key).audioHeader)
    (videoHeader : stream.videoHeader = (relay.opened key).videoHeader)
    (same : ∀ other sort, History.latest other sort (operation :: history) = history.latest other sort) :
    ∀ other kept, after.stream? other = some kept → Caches (operation :: history) other kept := by
  refine stocked.caches_of_changes changes (Caches.congr ⟨?_, ?_, ?_⟩ (same key)) fun other _ => same other
  · exact metadata.trans (stocked.opened accounts key).metadata
  · exact audioHeader.trans (stocked.opened accounts key).audioHeader
  · exact videoHeader.trans (stocked.opened accounts key).videoHeader

theorem step {operation : Operation} (enough : 3 ≤ room) (stocked : Stocked room history relay)
    (accounts : Accounts history relay) (next : Step history relay operation after) :
    Stocked room (operation :: history) after := by
  have handles := accounts.handles
  cases next with
  | @publish key _ claim given =>
    obtain ⟨free, rfl, _, queues, changes⟩ := publish_ok given
    have unclaimed := (accounts.portrait key).claim?_eq_none free
    have silent : ∀ packet, .sent ⟨key, relay.nextId, (relay.opened key).serial⟩ packet ∉ history := by
      intro packet member
      exact Nat.lt_irrefl _ (handles.numbered _ member)
    refine ⟨changes.capacity.trans stocked.capacity, stocked.keeps accounts changes rfl rfl rfl ?_, ?_⟩
    · intro other sort
      rw [History.latest_published silent]
      split
      next same => rw [← same, History.latest_of_unclaimed unclaimed]
      next => rfl
    · intro subscriber held
      rw [queue, queues]
      exact stocked.queues subscriber held
  | @refuse key error refused =>
    exact ⟨stocked.capacity, fun other kept there => (stocked.caches other kept there).congr fun _ => rfl,
      stocked.queues⟩
  | @subscribe key _ subscriber accepted =>
    obtain ⟨rfl, _, queues, changes⟩ := subscribe_eq accepted
    refine ⟨changes.capacity.trans stocked.capacity,
      stocked.keeps accounts changes rfl rfl rfl fun _ _ => rfl, ?_⟩
    intro subscriber held
    rw [History.backlog]
    split
    next same =>
      subst same
      rw [queue_insert_self queues, Queue.toList_ofList, (stocked.opened accounts key).replay_eq, stocked.capacity]
      exact List.take_of_length_le (Nat.le_trans (History.length_replay_le key history) enough)
    next different =>
      have before : subscriber ∈ history.subscribers := (List.mem_cons.mp held).resolve_left (Ne.symm different)
      have bound : subscriber.id < relay.nextId := handles.numbered _ (History.subscribed_of_mem before)
      rw [queue_insert_of_ne queues (Nat.ne_of_lt bound)]
      exact stocked.queues subscriber before
  | @send claim held packet =>
    obtain ⟨stream, there, serial, _⟩ := accounts.claimed held
    obtain ⟨_, changes⟩ := send_changes there serial (accounts.used _ _ there) packet
    refine ⟨changes.capacity.trans stocked.capacity,
      stocked.caches_of_changes changes ((stocked.caches _ _ there).sent handles held packet) ?_, ?_⟩
    · intro other different sort
      rw [History.latest_sent handles held, if_neg fun both => different both.1]
    · intro subscriber member
      have distinct : stream.sinks.Nodup := opened_of_some there ▸ accounts.nodup_sinks claim.key
      have reached := accounts.reaches_iff member claim.key
      rw [opened_of_some there] at reached
      let kept := relay.setStream claim.key (stream.keep packet)
      have queue : (kept.queue subscriber.id).toList = history.backlog room subscriber :=
        stocked.queues subscriber member
      have capacity : kept.capacity = room := stocked.capacity
      rw [send_eq there serial, queue_foldl_enqueue packet stream.sinks distinct, History.backlog]
      simp only [kept, queue, capacity, reached, and_assoc]
  | @receive subscriber _ delivery held taken =>
    obtain ⟨queues, eq⟩ := relay.receive_eq subscriber
    have received := queue_receive relay subscriber
    rw [taken] at eq received
    dsimp only at eq received
    refine ⟨eq ▸ stocked.capacity, ?_, ?_⟩
    · intro key stream there
      rw [eq] at there
      exact (stocked.caches key stream there).congr fun _ => rfl
    · intro other member
      have same : subscriber = other ↔ other.id = subscriber.id :=
        ⟨fun equal => equal ▸ rfl, fun equal => handles.eq_of_id held member equal.symm⟩
      rw [received, stocked.queues other member, History.backlog]
      simp only [same]
  | @unpublish claim held =>
    obtain ⟨stream, there, _, publisher⟩ := accounts.claimed held
    obtain ⟨_, queues, changes⟩ := dropPublisher_changes accounts.ascending there publisher
    refine ⟨changes.capacity.trans stocked.capacity, stocked.caches_of_changes changes ?_ ?_, ?_⟩
    · exact .of_unclaimed (handles.claim?_unpublished held) _
    · intro other different sort
      rw [History.latest_unpublished handles held, if_neg different]
    · intro subscriber member
      rw [queue, queues]
      exact stocked.queues subscriber member
  | @unsubscribe subscriber held =>
    obtain ⟨_, queues, changes⟩ := dropSubscriber_changes accounts.ascending subscriber
    refine ⟨changes.capacity.trans stocked.capacity,
      stocked.keeps accounts changes rfl rfl rfl fun _ _ => rfl, ?_⟩
    intro other member
    obtain ⟨still, different⟩ := List.mem_filter.mp member
    have apart : other.id ≠ subscriber.id := by
      intro same
      have equal := handles.eq_of_id still held same
      simp [equal] at different
    rw [queue, queues, Assoc.find?_erase_of_ne apart]
    exact stocked.queues other still

theorem isJoined_iff (accounts : Accounts history relay) {subscriber : Subscriber}
    (held : subscriber ∈ history.subscribers) :
    relay.isJoined subscriber = true ↔ subscriber ∈ history.followers subscriber.key := by
  rw [← accounts.mem_sinks_iff held]
  cases there : relay.stream? subscriber.key with
  | some stream => simp [isJoined, there, opened_of_some there]
  | none => simp [isJoined, there, opened_of_none there, LiveStream.new]

theorem receive_due (stocked : Stocked room history relay) (accounts : Accounts history relay)
    {subscriber : Subscriber} (held : subscriber ∈ history.subscribers) :
    (relay.receive subscriber).2 = history.due room subscriber := by
  rw [History.due, ← stocked.queues subscriber held, receive]
  cases popped : (relay.queue subscriber.id).pop? with
  | none =>
    rw [Queue.pop?_eq_none_iff.mp popped]
    simp only [isJoined_iff accounts held]
  | some front =>
    obtain ⟨packet, rest⟩ := front
    rw [Queue.toList_of_pop? popped]

end Stocked

theorem Run.stocked {capacity : Nat} {history : History} {relay : Relay} (run : Run capacity history relay) :
    Stocked (max capacity 4) history relay := by
  induction run with
  | new => exact .new capacity
  | step run next ih => exact ih.step (by omega) run.accounts next

theorem Run.in_order {capacity : Nat} {history : History} {relay : Relay} (run : Run capacity history relay)
    (subscriber : Subscriber) :
    (history.taken subscriber ++ history.backlog (max capacity 4) subscriber).Sublist
      (history.offered subscriber) := by
  induction run with
  | new => exact List.Sublist.refl []
  | @step history relay operation after run next ih =>
    cases next with
    | @subscribe key _ other accepted =>
      show (history.taken subscriber ++ _).Sublist _
      rw [History.backlog, History.offered]
      split
      next same =>
        subst same
        obtain ⟨rfl, _⟩ := subscribe_eq accepted
        have idle : ∀ delivery, .received ⟨key, relay.nextId⟩ delivery ∉ history := by
          intro delivery member
          exact Nat.lt_irrefl _ (run.accounts.handles.numbered _ member)
        rw [History.taken_of_idle idle]
        exact List.Sublist.refl _
      next => exact ih
    | @send claim held packet =>
      show (history.taken subscriber ++ _).Sublist _
      rw [History.backlog, History.offered]
      split
      next fits =>
        rw [if_pos ⟨fits.1, fits.2.1⟩, ← List.append_assoc]
        exact ih.append (List.Sublist.refl [packet])
      next =>
        split
        · exact ih.trans (List.sublist_append_left _ _)
        · exact ih
    | @receive other _ delivery held answer =>
      suffices moved : (Operation.takenBy? subscriber (.received other delivery)).toList ++
          History.backlog (max capacity 4) subscriber (.received other delivery :: history) =
            history.backlog (max capacity 4) subscriber by
        rw [History.taken_cons, List.append_assoc, moved]
        exact ih
      have due := run.stocked.receive_due run.accounts held
      rw [answer, History.due] at due
      rw [History.backlog]
      by_cases same : other = subscriber
      · subst same
        rw [if_pos rfl]
        split at due
        next packet rest waiting =>
          subst due
          simp [Operation.takenBy?, waiting]
        next empty =>
          subst due
          split <;> simp [Operation.takenBy?, empty]
      · cases delivery <;> simp [Operation.takenBy?, same]
    | publish | refuse | unpublish | unsubscribe => exact ih

/-- After every run, whatever the clients and keys: what waits for a subscriber is what the history says, and never more
than its queue has room for. What it receives next is the front of that, and it is told to wait or that the stream is
over only if nothing is left. So it is given nothing twice, out of order or from another time than its own. -/
theorem subscribers_get_their_backlog {capacity : Nat} {history : History} {relay : Relay}
    (run : Run capacity history relay) {subscriber : Subscriber} (held : subscriber ∈ history.subscribers) :
    (relay.queue subscriber.id).toList = history.backlog (max capacity 4) subscriber ∧
      (history.backlog (max capacity 4) subscriber).length ≤ max capacity 4 ∧
      (relay.receive subscriber).2 = history.due (max capacity 4) subscriber ∧
      (history.taken subscriber ++ history.backlog (max capacity 4) subscriber).Sublist
        (history.offered subscriber) :=
  ⟨run.stocked.queues subscriber held, History.length_backlog_le (by omega) subscriber history,
    run.stocked.receive_due run.accounts held, run.in_order subscriber⟩

/-- A decoder configuration and plain frames of sound. -/
def soundHeader : Packet :=
  .ofPayload .audio 1 0 [0xaf, 0, 0x12, 0x10]

def soundFrame (number : UInt8) : Packet :=
  .ofPayload .audio 1 number.toUInt32 [0xaf, 1, number]

def camera : Publisher :=
  ⟨"live/cam", 1, 1⟩

def viewer : Subscriber :=
  ⟨"live/cam", 2⟩

/-- Somebody joins after the configuration was sent, takes one packet only after four more, and sees the publisher
leave. -/
def slowViewing : History :=
  [.unpublished camera, .received viewer (.packet soundHeader), .sent camera (soundFrame 4),
    .sent camera (soundFrame 3), .sent camera (soundFrame 2), .sent camera (soundFrame 1), .subscribed viewer,
    .sent camera soundHeader, .published camera]

def slowlyViewed : Relay :=
  ⟨4, 3, 2, [], [(2, ⟨[], [soundFrame 3, soundFrame 2, soundFrame 1], 3, rfl⟩)]⟩

theorem Run.slowlyViewed : Run 1 slowViewing slowlyViewed := by
  have claimed := Run.step (Run.new : Run 1 _ _)
    (.publish (show Relay.publish _ "live/cam" = .ok (_, camera) from rfl))
  have configured := Run.step claimed (.send List.mem_cons_self soundHeader)
  have joined := Run.step configured
    (.subscribe (show Relay.subscribe _ "live/cam" = (_, viewer) from rfl))
  have one := Run.step joined (.send (show camera ∈ _ by decide) (soundFrame 1))
  have two := Run.step one (.send (show camera ∈ _ by decide) (soundFrame 2))
  have three := Run.step two (.send (show camera ∈ _ by decide) (soundFrame 3))
  have four := Run.step three (.send (show camera ∈ _ by decide) (soundFrame 4))
  have taken := Run.step four (.receive (show viewer ∈ _ by decide)
    (show Relay.receive _ _ = (_, .packet soundHeader) from rfl))
  exact Run.step taken (.unpublish (show camera ∈ _ by decide))

/-- The fourth frame was lost to the queue that was full, and the rest is still there for the taking. -/
theorem slow_viewer_misses_one :
    Run 1 slowViewing slowlyViewed ∧
      (slowlyViewed.queue viewer.id).toList = [soundFrame 1, soundFrame 2, soundFrame 3] ∧
      (slowlyViewed.receive viewer).2 = .packet (soundFrame 1) ∧
      [soundHeader, soundFrame 1, soundFrame 2, soundFrame 3].Sublist
        [soundHeader, soundFrame 1, soundFrame 2, soundFrame 3, soundFrame 4] := by
  obtain ⟨queue, _, next, order⟩ := subscribers_get_their_backlog Run.slowlyViewed
    (show viewer ∈ slowViewing.subscribers by decide)
  have backlog : slowViewing.backlog 4 viewer = [soundFrame 1, soundFrame 2, soundFrame 3] := by decide
  have taken : slowViewing.taken viewer = [soundHeader] := by decide
  have offered : slowViewing.offered viewer =
      [soundHeader, soundFrame 1, soundFrame 2, soundFrame 3, soundFrame 4] := by decide
  have due : slowViewing.due 4 viewer = .packet (soundFrame 1) := by rw [History.due, backlog]
  rw [taken, offered] at order
  exact ⟨Run.slowlyViewed, queue.trans backlog, next.trans due, backlog ▸ order⟩

end Relay
end RtmpRelay
