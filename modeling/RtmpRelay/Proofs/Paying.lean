import RtmpRelay.Proofs.Consuming
import RtmpRelay.Proofs.Delivery
import RtmpRelay.Session

/-! Every step that moves a session pays for itself: it takes bytes or a packet, or the session enters a later part of its
life. A packet that is sent on fills the queues of others, so a byte is worth as much as all that it can give them to
do. -/

namespace RtmpRelay

namespace Relay

/-- Different numbers that have all been given. -/
structure Given (nextId : Nat) (ids : List Nat) : Prop where
  distinct : ids.Nodup
  numbered : ∀ id ∈ ids, id < nextId

theorem Given.mono {before after : Nat} {ids : List Nat} (given : Given before ids) (further : before ≤ after) :
    Given after ids :=
  ⟨given.distinct, fun id member => Nat.lt_of_lt_of_le (given.numbered id member) further⟩

theorem Given.nil (nextId : Nat) : Given nextId [] :=
  ⟨List.nodup_nil, List.forall_mem_nil _⟩

theorem Given.snoc {nextId : Nat} {ids : List Nat} (given : Given nextId ids) : Given (nextId + 1) (ids ++ [nextId]) := by
  refine ⟨List.nodup_append.mpr ⟨given.distinct, List.nodup_singleton _, ?_⟩, ?_⟩
  · intro id member other last same
    rw [List.mem_singleton.mp last] at same
    exact Nat.ne_of_lt (given.numbered id member) same
  · refine List.forall_mem_append.mpr ⟨(given.mono (Nat.le_succ _)).numbered, ?_⟩
    exact List.forall_mem_singleton.mpr (Nat.lt_succ_self _)

structure Tidy (relay : Relay) : Prop where
  queues : relay.queues.Ascending
  streams : ∀ entry ∈ relay.streams, Given relay.nextId entry.2.sinks

/-- No queue that was there before has grown by more. -/
structure Fills (sent : Nat) (before after : Relay) : Prop where
  nextId : before.nextId ≤ after.nextId
  queues : ∀ id < before.nextId, (after.queue id).size ≤ (before.queue id).size + sent

section Operations
variable {relay before middle after : Relay} {first second : Nat}

theorem Fills.refl (relay : Relay) : Fills 0 relay relay :=
  ⟨Nat.le_refl _, fun _ _ => Nat.le_refl _⟩

theorem Fills.trans (one : Fills first before middle) (other : Fills second middle after) :
    Fills (first + second) before after := by
  refine ⟨Nat.le_trans one.nextId other.nextId, fun id given => ?_⟩
  have early := one.queues id given
  have late := other.queues id (Nat.lt_of_lt_of_le given one.nextId)
  omega

theorem Fills.of_queues (nextId : before.nextId ≤ after.nextId) (queues : after.queues = before.queues) :
    Fills 0 before after :=
  ⟨nextId, fun id _ => Nat.le_of_eq (by rw [queue, queue, queues, Nat.add_zero])⟩

theorem Tidy.new (capacity : Nat) : (Relay.new capacity).Tidy :=
  ⟨.nil, List.forall_mem_nil _⟩

theorem Tidy.setStream (tidy : relay.Tidy) (key : String) (stream : LiveStream)
    (given : Given relay.nextId stream.sinks) : (relay.setStream key stream).Tidy := by
  refine ⟨tidy.queues, fun entry member => ?_⟩
  rcases Assoc.mem_insert member with rfl | inside
  · exact given
  · exact tidy.streams entry inside

theorem Tidy.settle (tidy : relay.Tidy) (key : String) (stream : LiveStream)
    (given : Given relay.nextId stream.sinks) : (relay.settle key stream).Tidy := by
  rw [Relay.settle]
  split
  · exact ⟨tidy.queues, fun entry member => tidy.streams entry ((Assoc.erase_sublist key relay.streams).subset member)⟩
  · exact tidy.setStream key stream given

theorem Tidy.stream (tidy : relay.Tidy) {key : String} {stream : LiveStream} (there : relay.stream? key = some stream) :
    Given relay.nextId stream.sinks :=
  tidy.streams _ (Assoc.mem_of_find? there)

theorem Tidy.withNextId (tidy : relay.Tidy) {nextId : Nat} (further : relay.nextId ≤ nextId) :
    Tidy { relay with nextId } :=
  ⟨tidy.queues, fun entry member => (tidy.streams entry member).mono further⟩

theorem Tidy.withQueues (tidy : relay.Tidy) {queues : Assoc Nat (Queue Packet)} (ascending : queues.Ascending) :
    Tidy { relay with queues } :=
  ⟨ascending, tidy.streams⟩

theorem Tidy.openStream (tidy : relay.Tidy) (key : String) : (relay.openStream key).1.Tidy := by
  rw [Relay.openStream]
  split
  · exact tidy
  · have created := tidy.setStream key (.new relay.nextSerial) (.nil _)
    exact ⟨created.queues, created.streams⟩

theorem publish_tidy {key : String} {claim : Publisher} (given : relay.publish key = .ok (after, claim))
    (tidy : relay.Tidy) : after.Tidy := by
  have opened := tidy.openStream key
  obtain ⟨middle, found, there, _⟩ := openStream_eq relay key
  rw [found] at opened
  simp only [publish, found] at given
  split at given
  next => cases given
  next =>
    cases given
    have sinks := opened.stream there
    have claimed := opened.setStream key { relay.opened key with publisher := some middle.nextId } sinks
    exact claimed.withNextId (Nat.le_succ _)

theorem subscribe_tidy {key : String} {subscriber : Subscriber} (accepted : relay.subscribe key = (after, subscriber))
    (tidy : relay.Tidy) : after.Tidy := by
  have opened := tidy.openStream key
  obtain ⟨middle, found, there, _⟩ := openStream_eq relay key
  rw [found] at opened
  simp only [subscribe, invite, found, accept, there, if_true] at accepted
  cases accepted
  have numbered := opened.withNextId (Nat.le_succ middle.nextId)
  have joined := numbered.setStream key
    { relay.opened key with sinks := (relay.opened key).sinks ++ [middle.nextId] } (opened.stream there).snoc
  exact joined.withQueues (opened.queues.insert _ _)

theorem enqueue_tidy (tidy : relay.Tidy) (packet : Packet) (id : Nat) : (relay.enqueue packet id).Tidy := by
  unfold enqueue
  dsimp only
  split
  · exact tidy.withQueues (tidy.queues.insert _ _)
  · exact tidy

theorem send_tidy (tidy : relay.Tidy) (claim : Publisher) (packet : Packet) : (relay.send claim packet).Tidy := by
  unfold send
  split
  next => exact tidy
  next stream there =>
    split
    next =>
      refine List.foldlRecOn (motive := Tidy) stream.sinks _ (tidy.setStream claim.key _ ?_) ?_
      · rw [(stream.keep_members packet).2.2]
        exact tidy.stream there
      · exact fun relay tidy id _ => enqueue_tidy tidy packet id
    next => exact tidy

theorem send_fills (tidy : relay.Tidy) (claim : Publisher) (packet : Packet) :
    Fills 1 relay (relay.send claim packet) := by
  unfold send
  split
  next => exact ⟨Nat.le_refl _, fun _ _ => Nat.le_succ _⟩
  next stream there =>
    split
    next =>
      obtain ⟨queues, enqueued⟩ := foldl_enqueue_eq packet stream.sinks (relay.setStream claim.key (stream.keep packet))
      refine ⟨by rw [enqueued]; exact Nat.le_refl _, fun id _ => ?_⟩
      rw [Queue.size_eq_length, Queue.size_eq_length, queue_foldl_enqueue packet _ (tidy.stream there).distinct]
      show _ ≤ (relay.queue id).toList.length + 1
      split
      · rw [List.length_append]
        exact Nat.le_refl _
      · exact Nat.le_succ _
    next => exact ⟨Nat.le_refl _, fun _ _ => Nat.le_succ _⟩

theorem publish_fills {key : String} {claim : Publisher} (given : relay.publish key = .ok (after, claim)) :
    Fills 0 relay after := by
  obtain ⟨_, _, nextId, queues, _⟩ := publish_ok given
  exact .of_queues (nextId ▸ Nat.le_succ _) queues

theorem subscribe_fills {key : String} {subscriber : Subscriber} (accepted : relay.subscribe key = (after, subscriber)) :
    Fills 0 relay after := by
  obtain ⟨_, nextId, queues, _⟩ := subscribe_eq accepted
  refine ⟨nextId ▸ Nat.le_succ _, fun id given => ?_⟩
  rw [queue_insert_of_ne queues (Nat.ne_of_lt given)]
  exact Nat.le_refl _

/-- What is replayed are the metadata and two sequence headers at most. -/
theorem subscribe_size {key : String} {subscriber : Subscriber} (accepted : relay.subscribe key = (after, subscriber)) :
    subscriber.id < after.nextId ∧ (after.queue subscriber.id).size ≤ 3 := by
  obtain ⟨rfl, nextId, queues, _⟩ := subscribe_eq accepted
  refine ⟨nextId ▸ Nat.lt_succ_self _, ?_⟩
  have optional (packet : Option Packet) : packet.toList.length ≤ 1 := by cases packet <;> simp
  have metadata := optional (relay.opened key).metadata
  have audio := optional (relay.opened key).audioHeader
  have video := optional (relay.opened key).videoHeader
  rw [queue_insert_self queues, Queue.size_eq_length, Queue.toList_ofList, List.length_take, LiveStream.replay,
    List.length_append, List.length_append]
  omega

theorem receive_tidy (tidy : relay.Tidy) (subscriber : Subscriber) : (relay.receive subscriber).1.Tidy := by
  unfold receive
  split
  · exact tidy.withQueues (tidy.queues.insert _ _)
  · exact tidy

theorem receive_fills (relay : Relay) (subscriber : Subscriber) : Fills 0 relay (relay.receive subscriber).1 := by
  obtain ⟨queues, received⟩ := relay.receive_eq subscriber
  refine ⟨by rw [received], fun id _ => ?_⟩
  rw [Queue.size_eq_length, Queue.size_eq_length, queue_receive]
  split
  · rw [List.length_tail]
    exact Nat.sub_le _ 1
  · exact Nat.le_refl _

theorem receive_nothing {subscriber : Subscriber} {delivery : Delivery} (received : relay.receive subscriber = (after, delivery))
    (nothing : ∀ packet, delivery ≠ .packet packet) : after = relay := by
  unfold receive at received
  split at received
  next packet _ _ =>
    cases received
    exact absurd rfl (nothing packet)
  next => exact (Prod.mk.inj received).1.symm

theorem dropPublisher_tidy (tidy : relay.Tidy) (claim : Publisher) : (relay.dropPublisher claim).Tidy := by
  unfold dropPublisher
  split
  next => exact tidy
  next stream there =>
    refine tidy.settle claim.key _ ?_
    split
    · exact .nil _
    · exact tidy.stream there

theorem dropPublisher_fills (relay : Relay) (claim : Publisher) : Fills 0 relay (relay.dropPublisher claim) := by
  unfold dropPublisher
  split
  next => exact .refl relay
  next => exact .of_queues (Nat.le_of_eq (relay.settle_nextId _ _).1.symm) (relay.settle_nextId _ _).2

theorem dropSubscriber_tidy (tidy : relay.Tidy) (subscriber : Subscriber) : (relay.dropSubscriber subscriber).Tidy := by
  have left := tidy.withQueues (tidy.queues.erase subscriber.id)
  unfold dropSubscriber
  dsimp only
  split
  next => exact left
  next stream there =>
    obtain ⟨distinct, numbered⟩ := tidy.stream there
    refine left.settle subscriber.key _ ⟨distinct.filter _, fun id member => numbered id ?_⟩
    exact (List.mem_filter.mp member).1

theorem dropSubscriber_fills (tidy : relay.Tidy) (subscriber : Subscriber) :
    Fills 0 relay (relay.dropSubscriber subscriber) := by
  have left : Fills 0 relay { relay with queues := relay.queues.erase subscriber.id } := by
    refine ⟨Nat.le_refl _, fun id _ => ?_⟩
    rw [queue, queue]
    by_cases same : id = subscriber.id
    · rw [same, tidy.queues.find?_erase_self]
      exact Nat.zero_le _
    · rw [Assoc.find?_erase_of_ne same]
      exact Nat.le_refl _
  unfold dropSubscriber
  dsimp only
  split
  next => exact left
  next =>
    obtain ⟨nextId, queues⟩ := settle_nextId { relay with queues := relay.queues.erase subscriber.id } _ _
    exact left.trans (.of_queues (Nat.le_of_eq nextId.symm) queues)

end Operations
end Relay

def Progress.count : Progress → Nat
  | .moved => 1
  | .waiting => 0

namespace Session
open Relay (Tidy Fills)
open Endpoint (Spends leaves)

/-- A player's queue is one of those that the relay has given out. -/
def Numbered (session : Session) (relay : Relay) : Prop :=
  ∀ subscriber isReading, session.role = .player subscriber isReading → subscriber.id < relay.nextId

/-- What is left to do, with so many others that a packet may reach. -/
def work (others : Nat) (session : Session) (relay : Relay) : Nat :=
  match session.role with
  | .finished _ => 0
  | .negotiating => (others + 2) * session.endpoint.inbound.length + 6
  | .publisher _ => (others + 2) * session.endpoint.inbound.length + 1
  | .player subscriber isReading =>
    (others + 2) * session.endpoint.inbound.length + (relay.queue subscriber.id).size + if isReading then 1 else 2

/-- What is reached is within a budget, and so are the packets that were sent to others on the way. -/
structure Pays (others budget : Nat) (session : Session) (relay : Relay) (reached : Step) : Prop where
  tidy : relay.Tidy → reached.2.1.Tidy
  numbered : relay.Tidy → session.Numbered relay → reached.1.Numbered reached.2.1
  spent : ∃ sent, (relay.Tidy → Fills sent relay reached.2.1) ∧
    others * sent + reached.1.work others reached.2.1 + reached.2.2.count ≤ budget

section Steps
variable {others budget : Nat} {session : Session} {relay : Relay} {reached : Step}

theorem work_of_less {endpoint : Endpoint} (less : endpoint.inbound.length ≤ session.endpoint.inbound.length) :
    { session with endpoint }.work others relay ≤ session.work others relay := by
  have cheaper := Nat.mul_le_mul_left (others + 2) less
  unfold work
  dsimp only
  split
  · exact Nat.le_refl _
  · exact Nat.add_le_add_right cheaper _
  · exact Nat.add_le_add_right cheaper _
  · exact Nat.add_le_add_right (Nat.add_le_add_right cheaper _) _

theorem work_pos {role : Role} (same : session.role = role) (active : ∀ result, role ≠ .finished result) :
    0 < session.work others relay := by
  rw [work, same]
  cases role with
  | finished result => exact absurd rfl (active result)
  | negotiating => exact Nat.succ_pos _
  | publisher claim => exact Nat.succ_pos _
  | player subscriber isReading => cases isReading <;> exact Nat.succ_pos _

theorem Pays.of_same (affordable : session.work others relay ≤ budget) :
    Pays others budget session relay (session, relay, .waiting) :=
  ⟨id, fun _ numbered => numbered, 0, fun _ => .refl relay, by simpa [Progress.count] using affordable⟩

theorem Pays.of_moved {next : Session} (numbered : session.Numbered relay → next.Numbered relay)
    (affordable : next.work others relay + 1 ≤ budget) : Pays others budget session relay (next, relay, .moved) :=
  ⟨id, fun _ => numbered, 0, fun _ => .refl relay, by simpa [Progress.count] using affordable⟩

theorem Pays.weaken {more : Nat} (pays : Pays others budget session relay reached) (enough : budget ≤ more) :
    Pays others more session relay reached := by
  obtain ⟨sent, fills, paid⟩ := pays.spent
  exact ⟨pays.tidy, pays.numbered, sent, fills, Nat.le_trans paid enough⟩

theorem Pays.trans {middle : Step} (first : Pays others budget session relay middle)
    (second : Pays others (middle.1.work others middle.2.1 + middle.2.2.count) middle.1 middle.2.1 reached) :
    Pays others budget session relay reached := by
  obtain ⟨one, early, paid⟩ := first.spent
  obtain ⟨two, late, further⟩ := second.spent
  refine ⟨second.tidy ∘ first.tidy, fun tidy numbered => ?_, one + two, fun tidy => ?_, ?_⟩
  · exact second.numbered (first.tidy tidy) (first.numbered tidy numbered)
  · exact (early tidy).trans (late (first.tidy tidy))
  · rw [Nat.mul_add]
    omega

/-- Whatever is given back at the end fills no queue. -/
theorem Pays.finish (affordable : 0 < budget) (endpoint : Endpoint) (result : Except Error Unit) :
    Pays others budget session relay (Session.finish { session with endpoint } relay result) := by
  refine ⟨fun tidy => ?_, fun _ _ _ _ other => (nomatch other), 0, fun tidy => ?_, ?_⟩
  · show (release relay session.role).Tidy
    unfold release
    split
    · exact Relay.dropPublisher_tidy tidy _
    · exact Relay.dropSubscriber_tidy tidy _
    · exact tidy
    · exact tidy
  · show Fills 0 relay (release relay session.role)
    unfold release
    split
    · exact Relay.dropPublisher_fills relay _
    · exact Relay.dropSubscriber_fills tidy _
    · exact .refl relay
    · exact .refl relay
  · show others * 0 + 0 + 1 ≤ budget
    omega

theorem Pays.perform {least : Nat} {action : Action α} {next : Session → α → Step} (spends : Spends least action)
    (affordable : session.work others relay ≤ budget) (positive : 0 < budget)
    (goes : ∀ value endpoint, endpoint.inbound.length + least ≤ session.endpoint.inbound.length →
      Pays others budget session relay (next { session with endpoint } value)) :
    Pays others budget session relay (Session.perform session relay action next) := by
  have taken := spends session.endpoint
  unfold Session.perform
  cases ran : action session.endpoint with
  | ok value endpoint =>
    rw [ran] at taken
    exact goes value endpoint taken
  | error stop endpoint =>
    rw [ran] at taken
    cases stop with
    | waiting =>
      refine ⟨id, fun _ numbered => numbered, 0, fun _ => .refl relay, ?_⟩
      have less : { session with endpoint }.work others relay ≤ _ := work_of_less taken
      show others * 0 + { session with endpoint }.work others relay + 0 ≤ budget
      omega
    | failed error => exact .finish positive endpoint _

theorem negotiate_spends (random : Bytes) : Spends 0 (negotiate random) := by
  have headed : Spends 0 (do Endpoint.readHeader; return (← Endpoint.connection?).phase : Action Phase) :=
    .bind Endpoint.readHeader_spends fun _ => .bind .connection? fun _ => .pure _
  refine .bind .connection? fun connection => ?_
  dsimp only
  split
  · exact .bind (Endpoint.handshake_spends random) fun _ => headed
  · exact headed

theorem negotiating_pays (random : Bytes) (negotiating : session.role = .negotiating) :
    Pays others (session.work others relay) session relay
      (Session.perform session relay (negotiate random) fun session phase => assignRole session relay phase) := by
  have positive : 0 < session.work others relay := work_pos negotiating nofun
  refine .perform (negotiate_spends random) (Nat.le_refl _) positive fun phase endpoint less => ?_
  have cheaper : (others + 2) * endpoint.inbound.length ≤ _ := Nat.mul_le_mul_left (others + 2) less
  have budget : session.work others relay = (others + 2) * session.endpoint.inbound.length + 6 := by
    rw [work, negotiating]
  unfold assignRole
  dsimp only
  split
  next =>
    split
    next after claim given =>
      refine ⟨Relay.publish_tidy given, fun _ _ _ _ other => (nomatch other), 0, fun _ => Relay.publish_fills given, ?_⟩
      show others * 0 + ((others + 2) * endpoint.inbound.length + 1) + 1 ≤ _
      omega
    next => exact .finish positive endpoint _
  next =>
    obtain ⟨after, subscriber, accepted⟩ : ∃ after subscriber,
        relay.subscribe endpoint.connection.streamKey = (after, subscriber) := ⟨_, _, rfl⟩
    obtain ⟨given, size⟩ := Relay.subscribe_size accepted
    rw [accepted]
    refine ⟨Relay.subscribe_tidy accepted, fun _ _ _ _ same => ?_, 0, fun _ => Relay.subscribe_fills accepted, ?_⟩
    · cases same
      exact given
    · show others * 0 + ((others + 2) * endpoint.inbound.length + (after.queue subscriber.id).size + 2) + 1 ≤ _
      omega
  next => exact .finish positive endpoint _

theorem publishStep_pays {claim : Publisher} (publishing : session.role = .publisher claim) :
    Pays others (session.work others relay) session relay (publishStep session relay claim) := by
  have positive : 0 < session.work others relay := work_pos publishing nofun
  unfold publishStep
  split
  · exact .finish positive session.endpoint _
  refine .perform Endpoint.readMedia_spends (Nat.le_refl _) positive fun packet endpoint less => ?_
  have cheaper := Nat.mul_le_mul_left (others + 2) less
  rw [Nat.mul_succ] at cheaper
  have before : session.work others relay = (others + 2) * session.endpoint.inbound.length + 1 := by
    rw [work, publishing]
  have after (relay : Relay) : { session with endpoint }.work others relay =
      (others + 2) * endpoint.inbound.length + 1 := by rw [work, publishing]
  cases packet with
  | some packet =>
    refine ⟨fun tidy => Relay.send_tidy tidy claim packet, fun _ _ _ _ other => ?_, 1,
      fun tidy => Relay.send_fills tidy claim packet, ?_⟩
    · cases publishing.symm.trans other
    · show others * 1 + { session with endpoint }.work others _ + 1 ≤ _
      rw [after]
      omega
  | none =>
    refine .of_moved id ?_
    rw [after]
    omega

end Steps

section Playing
variable {others : Nat} {session : Session} {relay : Relay} {subscriber : Subscriber}

theorem work_player (others : Nat) (relay : Relay) {isReading : Bool} (playing : session.role = .player subscriber isReading) :
    session.work others relay = (others + 2) * session.endpoint.inbound.length +
      (relay.queue subscriber.id).size + if isReading then 1 else 2 := by
  rw [work, playing]

theorem playMessage_pays (playing : session.role = .player subscriber true) :
    Pays others (session.work others relay) session relay (playMessage session relay subscriber) := by
  have positive : 0 < session.work others relay := work_pos playing nofun
  have spends : Spends 1 (do
      Endpoint.handle (← Endpoint.readMessage)
      return (← Endpoint.connection?).phase : Action Phase) :=
    .first Endpoint.readMessage_spends fun message =>
      .bind (Endpoint.handle_spends message) fun _ => .bind .connection? fun _ => .pure _
  unfold playMessage
  dsimp only
  refine .perform spends (Nat.le_refl _) positive fun phase endpoint less => ?_
  have cheaper := Nat.mul_le_mul_left (others + 2) less
  rw [Nat.mul_succ] at cheaper
  have before := work_player others relay playing
  dsimp only
  split
  · exact .finish positive endpoint _
  refine .of_moved (fun numbered _ _ same => ?_) ?_
  · cases same
    exact numbered _ _ playing
  · rw [before, if_pos rfl]
    show (others + 2) * endpoint.inbound.length + (relay.queue subscriber.id).size + 2 + 1 ≤ _
    omega

/-- Who has to wait goes on in the same role. -/
def Stays (session : Session) (reached : Step) : Prop :=
  reached.2.2 = .waiting → reached.1.role = session.role

theorem Stays.perform {action : Action α} {next : Session → α → Step}
    (moves : ∀ session value, (next session value).2.2 = .moved) :
    Stays session (Session.perform session relay action next) := by
  intro waits
  unfold Session.perform at waits ⊢
  split at waits
  next value endpoint _ =>
    rw [moves] at waits
    cases waits
  next => rfl
  next => cases waits

theorem Pays.of_received {budget : Nat} {after : Relay} {reached : Step} (received : (relay.receive subscriber).1 = after)
    (pays : Pays others budget session after reached) : Pays others budget session relay reached := by
  subst received
  obtain ⟨sent, fills, paid⟩ := pays.spent
  refine ⟨fun tidy => pays.tidy (Relay.receive_tidy tidy subscriber), fun tidy numbered => ?_, sent, fun tidy => ?_, paid⟩
  · refine pays.numbered (Relay.receive_tidy tidy subscriber) fun other isReading role => ?_
    exact Nat.lt_of_lt_of_le (numbered other isReading role) (Relay.receive_fills relay subscriber).nextId
  · exact Nat.zero_add sent ▸ (Relay.receive_fills relay subscriber).trans (fills (Relay.receive_tidy tidy subscriber))

theorem playQueued_pays (playing : session.role = .player subscriber false) :
    Pays others (session.work others relay) session relay (playQueued session relay subscriber) ∧
      Stays session (playQueued session relay subscriber) := by
  have positive : 0 < session.work others relay := work_pos playing nofun
  unfold playQueued
  split
  next after packet received =>
    have taken : (relay.queue subscriber.id).size = (after.queue subscriber.id).size + 1 := by
      rw [Queue.size_eq_length, Queue.size_eq_length, Relay.receive_packet received, List.length_cons]
    have before := work_player others relay playing
    have behind := work_player others after playing
    have left : (relay.receive subscriber).1 = after := congrArg Prod.fst received
    refine ⟨.of_received left (.perform (Endpoint.send_spends packet.toMessage) ?_ positive fun _ endpoint less => ?_),
      .perform fun _ _ => rfl⟩
    · omega
    · have cheaper : { session with endpoint }.work others after ≤ session.work others after := work_of_less less
      refine .of_moved id ?_
      omega
  next after received =>
    obtain rfl := Relay.receive_nothing received nofun
    exact ⟨.of_same (Nat.le_refl _), fun _ => rfl⟩
  next after received =>
    obtain rfl := Relay.receive_nothing received nofun
    refine ⟨.perform (Endpoint.send_spends _) (Nat.le_refl _) positive fun _ endpoint _ => ?_, .perform fun _ _ => rfl⟩
    exact .finish positive endpoint _

theorem playInbound_pays (playing : session.role = .player subscriber false) :
    Pays others (session.work others relay) session relay (playInbound session relay subscriber) ∧
      Stays session (playInbound session relay subscriber) := by
  have positive : 0 < session.work others relay := work_pos playing nofun
  refine ⟨.perform Endpoint.waitInbound_spends (Nat.le_refl _) positive fun hasMore endpoint less => ?_, .perform ?_⟩
  · dsimp only
    split
    · have cheaper : (others + 2) * endpoint.inbound.length ≤ _ := Nat.mul_le_mul_left (others + 2) less
      have before := work_player others relay playing
      refine .of_moved (fun numbered _ _ same => ?_) ?_
      · cases same
        exact numbered _ _ playing
      · rw [before, if_neg Bool.false_ne_true]
        show (others + 2) * endpoint.inbound.length + (relay.queue subscriber.id).size + 1 + 1 ≤ _
        omega
    · exact .finish positive endpoint _
  · intro _ hasMore
    cases hasMore <;> rfl

theorem otherwise_pays {reached : Step} {next : Session → Relay → Step}
    (first : Pays others (session.work others relay) session relay reached) (stays : Stays session reached)
    (second : ∀ other relay, other.role = session.role → Pays others (other.work others relay) other relay (next other relay)) :
    Pays others (session.work others relay) session relay (otherwise reached next) := by
  obtain ⟨other, after, progress⟩ := reached
  cases progress with
  | moved => exact first
  | waiting => exact first.trans (second other after (stays rfl))

theorem step_pays (random : Bytes) (first : Source) (session : Session) (relay : Relay) :
    Pays others (session.work others relay) session relay (session.step random first relay) := by
  unfold step
  cases role : session.role with
  | finished result => exact .of_same (Nat.le_refl _)
  | negotiating => exact negotiating_pays random role
  | publisher claim => exact publishStep_pays role
  | player subscriber isReading =>
    cases isReading with
    | true => exact playMessage_pays role
    | false =>
      cases first with
      | queue =>
        obtain ⟨pays, stays⟩ := playQueued_pays role
        exact otherwise_pays pays stays fun _ _ same => (playInbound_pays (same.trans role)).1
      | inbound =>
        obtain ⟨pays, stays⟩ := playInbound_pays role
        exact otherwise_pays pays stays fun _ _ same => (playQueued_pays (same.trans role)).1

end Playing
end Session
end RtmpRelay
