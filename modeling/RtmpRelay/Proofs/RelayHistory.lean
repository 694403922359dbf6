import RtmpRelay.Relay.Basic

/-! What clients have done with a relay. A history knows nothing of streams and queues: it tells which handles are
still held, which subscribers no departure has cut off, and what the publisher of a key has sent. What holds of a
relay after every run is said in these words. -/

namespace RtmpRelay.Relay

/-- One thing that a client has done, with the handle that it got or used and with what it was answered. -/
inductive Operation where
  | published (claim : Publisher)
  | refused (key : String)
  | subscribed (subscriber : Subscriber)
  | sent (claim : Publisher) (packet : Packet)
  | received (subscriber : Subscriber) (delivery : Delivery)
  | unpublished (claim : Publisher)
  | unsubscribed (subscriber : Subscriber)

namespace Operation

/-- The number of the handle; a refused client has none. -/
def id : Operation → Nat
  | .published claim | .sent claim _ | .unpublished claim => claim.id
  | .subscribed subscriber | .received subscriber _ | .unsubscribed subscriber => subscriber.id
  | .refused _ => 0

/-- Whether a publisher of the key leaves. -/
def departs (key : String) : Operation → Bool
  | .unpublished claim => claim.key = key
  | _ => false

def newSubscriber? : Operation → Option Subscriber
  | .subscribed subscriber => some subscriber
  | _ => none

def sentBy? (claim : Publisher) : Operation → Option Packet
  | .sent sender packet => if sender = claim then some packet else none
  | _ => none

end Operation

/-- The latest operation comes first. -/
abbrev History := List Operation

namespace History

/-- Who holds a claim: it was given and has not been given up. -/
def publishers : History → List Publisher
  | [] => []
  | .published claim :: earlier => claim :: publishers earlier
  | .unpublished claim :: earlier => (publishers earlier).filter (· ≠ claim)
  | .refused _ :: earlier | .subscribed _ :: earlier | .sent _ _ :: earlier | .received _ _ :: earlier
  | .unsubscribed _ :: earlier => publishers earlier

/-- Who has subscribed and not left since. -/
def subscribers : History → List Subscriber
  | [] => []
  | .subscribed subscriber :: earlier => subscriber :: subscribers earlier
  | .unsubscribed subscriber :: earlier => (subscribers earlier).filter (· ≠ subscriber)
  | .published _ :: earlier | .refused _ :: earlier | .sent _ _ :: earlier | .received _ _ :: earlier
  | .unpublished _ :: earlier => subscribers earlier

/-- All who have ever subscribed. -/
def joined (history : History) : List Subscriber :=
  history.filterMap Operation.newSubscriber?

/-- What has happened since a publisher of the key left for the last time, or all of it if none ever did. -/
def sinceDeparture (key : String) (history : History) : History :=
  history.takeWhile (!·.departs key)

def claim? (key : String) (history : History) : Option Publisher :=
  history.publishers.find? (·.key = key)

/-- The subscribers of a key that are still there and came after the last departure of a publisher of the key. -/
def followers (key : String) (history : History) : List Subscriber :=
  history.subscribers.filter fun subscriber =>
    subscriber.key = key ∧ subscriber ∈ joined (history.sinceDeparture key)

variable {history : History}

theorem published_of_mem {claim : Publisher} (held : claim ∈ history.publishers) : .published claim ∈ history := by
  induction history with
  | nil => cases held
  | cons operation earlier ih =>
    cases operation with
    | published other =>
      rcases List.mem_cons.mp held with rfl | before
      · exact List.mem_cons_self
      · exact List.mem_cons_of_mem _ (ih before)
    | unpublished other => exact List.mem_cons_of_mem _ (ih (List.mem_filter.mp held).1)
    | refused | subscribed | sent | received | unsubscribed => exact List.mem_cons_of_mem _ (ih held)

theorem subscribed_of_mem {subscriber : Subscriber} (held : subscriber ∈ history.subscribers) :
    .subscribed subscriber ∈ history := by
  induction history with
  | nil => cases held
  | cons operation earlier ih =>
    cases operation with
    | subscribed other =>
      rcases List.mem_cons.mp held with rfl | before
      · exact List.mem_cons_self
      · exact List.mem_cons_of_mem _ (ih before)
    | unsubscribed other => exact List.mem_cons_of_mem _ (ih (List.mem_filter.mp held).1)
    | published | refused | sent | received | unpublished => exact List.mem_cons_of_mem _ (ih held)

theorem mem_followers_iff {subscriber : Subscriber} {key : String} :
    subscriber ∈ history.followers key ↔
      subscriber ∈ history.subscribers ∧ subscriber.key = key ∧ subscriber ∈ joined (history.sinceDeparture key) := by
  simp [followers]

theorem claim?_published (claim : Publisher) (key : String) :
    claim? key (.published claim :: history) = if claim.key = key then some claim else claim? key history := by
  simp only [claim?, publishers, List.find?_cons]
  by_cases same : claim.key = key <;> simp [same]

theorem claim?_unpublished_of_ne {claim : Publisher} {key : String} (other : claim.key ≠ key) :
    claim? key (.unpublished claim :: history) = claim? key history := by
  simp only [claim?, publishers, List.find?_filter]
  congr 1
  funext held
  by_cases same : held = claim
  · subst same; simp [other]
  · simp [same]

theorem followers_subscribed {subscriber : Subscriber} (fresh : subscriber ∉ history.subscribers) (key : String) :
    followers key (.subscribed subscriber :: history) =
      if subscriber.key = key then subscriber :: followers key history else followers key history := by
  have others : (history.subscribers.filter fun held => held.key = key ∧
        (held = subscriber ∨ held ∈ joined (history.sinceDeparture key))) = followers key history := by
    refine List.filter_congr fun held member => ?_
    have different : held ≠ subscriber := fun same => fresh (same ▸ member)
    simp [different]
  have since : joined (sinceDeparture key (.subscribed subscriber :: history)) =
      subscriber :: joined (history.sinceDeparture key) := rfl
  rw [followers, since]
  simp only [subscribers, List.mem_cons]
  rw [List.filter_cons, others]
  by_cases same : subscriber.key = key <;> simp [same]

theorem followers_unpublished (claim : Publisher) (key : String) :
    followers key (.unpublished claim :: history) = if claim.key = key then [] else followers key history := by
  by_cases same : claim.key = key
  · have none : sinceDeparture key (.unpublished claim :: history) = [] := by
      simp [sinceDeparture, Operation.departs, same]
    simp [followers, none, same, joined]
  · have since : sinceDeparture key (.unpublished claim :: history) =
        .unpublished claim :: history.sinceDeparture key := by
      simp [sinceDeparture, Operation.departs, same]
    rw [if_neg same, followers, since]
    rfl

theorem followers_unsubscribed (subscriber : Subscriber) (key : String) :
    followers key (.unsubscribed subscriber :: history) = (followers key history).filter (· ≠ subscriber) := by
  have since : joined (sinceDeparture key (.unsubscribed subscriber :: history)) =
      joined (history.sinceDeparture key) := rfl
  rw [followers, since, subscribers, List.filter_filter, followers, List.filter_filter]
  exact List.filter_congr fun held _ => Bool.and_comm _ _

end History

/-- A client can do what its handle allows as long as it holds it. -/
inductive Step (history : History) : Relay → Operation → Relay → Prop where
  | publish {relay key after claim} (given : relay.publish key = .ok (after, claim)) :
      Step history relay (.published claim) after
  | refuse {relay key error} (refused : relay.publish key = .error error) : Step history relay (.refused key) relay
  | subscribe {relay key after subscriber} (accepted : relay.subscribe key = (after, subscriber)) :
      Step history relay (.subscribed subscriber) after
  | send {relay claim} (held : claim ∈ history.publishers) (packet : Packet) :
      Step history relay (.sent claim packet) (relay.send claim packet)
  | receive {relay subscriber after delivery} (held : subscriber ∈ history.subscribers)
      (taken : relay.receive subscriber = (after, delivery)) : Step history relay (.received subscriber delivery) after
  | unpublish {relay claim} (held : claim ∈ history.publishers) :
      Step history relay (.unpublished claim) (relay.dropPublisher claim)
  | unsubscribe {relay subscriber} (held : subscriber ∈ history.subscribers) :
      Step history relay (.unsubscribed subscriber) (relay.dropSubscriber subscriber)

/-- What can become of a new relay, one operation after another, by any clients on any keys. -/
inductive Run (capacity : Nat) : History → Relay → Prop where
  | new : Run capacity [] (.new capacity)
  | step {history relay operation after} (run : Run capacity history relay)
      (next : Step history relay operation after) : Run capacity (operation :: history) after

end RtmpRelay.Relay
