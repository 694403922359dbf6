import RtmpRelay.Assoc
import RtmpRelay.Error
import RtmpRelay.Packet
import RtmpRelay.Relay.Queue

/-!
The streams that are live, by key, and who takes part in them. A stream exists as long as it has a publisher
or a subscriber. Each subscriber has a queue of its own with room for so many packets; packets that find it
full are lost to that subscriber alone.
-/

namespace RtmpRelay

/-- A stream is told apart from later ones under the same key by its serial number. The last metadata and
the last sequence headers of the publisher are kept for subscribers that join later. -/
structure LiveStream where
  serial : Nat
  publisher : Option Nat
  sinks : List Nat
  metadata : Option Packet
  audioHeader : Option Packet
  videoHeader : Option Packet
deriving DecidableEq

namespace LiveStream

def new (serial : Nat) : LiveStream :=
  ⟨serial, none, [], none, none, none⟩

/-- What a new subscriber gets at once. -/
def replay (stream : LiveStream) : List Packet :=
  stream.metadata.toList ++ stream.audioHeader.toList ++ stream.videoHeader.toList

def isUnused (stream : LiveStream) : Bool :=
  stream.publisher.isNone && stream.sinks.isEmpty

/-- Keeps a packet that later subscribers need. Metadata counts only if it has a name. -/
def keep (stream : LiveStream) (packet : Packet) : LiveStream :=
  match packet.kind with
  | .metadata =>
    if (Flv.metadataName packet.payload).toOption.isSome then { stream with metadata := some packet } else stream
  | .audio => if packet.isSequenceHeader then { stream with audioHeader := some packet } else stream
  | .video => if packet.isSequenceHeader then { stream with videoHeader := some packet } else stream

/-- The stream without its publisher: nobody is reached any more and nothing is kept. -/
def vacate (stream : LiveStream) : LiveStream :=
  .new stream.serial

end LiveStream

/-- The right to send on a stream. -/
structure Publisher where
  key : String
  id : Nat
  serial : Nat
deriving DecidableEq

/-- A stream that was looked up to be joined. -/
structure Invitation where
  key : String
  serial : Nat
deriving DecidableEq

structure Subscriber where
  key : String
  id : Nat
deriving DecidableEq

structure Relay where
  capacity : Nat
  nextId : Nat
  nextSerial : Nat
  streams : Assoc String LiveStream
  queues : Assoc Nat (Queue Packet)
deriving DecidableEq

namespace Relay

/-- A queue always has room for the packets that are replayed. -/
def new (capacity : Nat) : Relay :=
  ⟨max capacity 4, 1, 1, [], []⟩

def stream? (relay : Relay) (key : String) : Option LiveStream :=
  relay.streams.find? key

def streamCount (relay : Relay) : Nat :=
  relay.streams.length

def subscriberCount (relay : Relay) (key : String) : Nat :=
  ((relay.stream? key).map (·.sinks.length)).getD 0

def hasPublisher (relay : Relay) (key : String) : Bool :=
  (relay.stream? key).any (·.publisher.isSome)

def queue (relay : Relay) (id : Nat) : Queue Packet :=
  (relay.queues.find? id).getD (.ofList [])

def setStream (relay : Relay) (key : String) (stream : LiveStream) : Relay :=
  { relay with streams := relay.streams.insert key stream }

/-- Puts a changed stream back, or gives its key free if nobody uses it any more. -/
def settle (relay : Relay) (key : String) (stream : LiveStream) : Relay :=
  if stream.isUnused then { relay with streams := relay.streams.erase key } else relay.setStream key stream

/-- The stream under a key, which is created if there is none. -/
def openStream (relay : Relay) (key : String) : Relay × LiveStream :=
  match relay.stream? key with
  | some stream => (relay, stream)
  | none =>
    let stream := LiveStream.new relay.nextSerial
    ({ relay.setStream key stream with nextSerial := relay.nextSerial + 1 }, stream)

/-- Claims a key for a publisher. Subscribers that are waiting there already are reached from now on. -/
def publish (relay : Relay) (key : String) : Except Error (Relay × Publisher) :=
  let (opened, stream) := relay.openStream key
  if stream.publisher.isSome then throw (.alreadyPublishing key)
  else
    let id := opened.nextId
    let claimed := opened.setStream key { stream with publisher := some id }
    return ({ claimed with nextId := id + 1 }, ⟨key, id, stream.serial⟩)

/-- The first half of subscribing: finds the stream, or creates it without a publisher. -/
def invite (relay : Relay) (key : String) : Relay × Invitation :=
  let (opened, stream) := relay.openStream key
  (opened, ⟨key, stream.serial⟩)

/-- The second half of subscribing: queues what is replayed and joins the stream. If the stream has been
given up in the meantime, the new subscriber is not part of any. -/
def accept (relay : Relay) (invitation : Invitation) : Relay × Subscriber :=
  let id := relay.nextId
  let numbered := { relay with nextId := id + 1 }
  let subscriber : Subscriber := ⟨invitation.key, id⟩
  match relay.stream? invitation.key with
  | some stream =>
    if stream.serial = invitation.serial then
      let joined := numbered.setStream invitation.key { stream with sinks := stream.sinks ++ [id] }
      ({ joined with queues := joined.queues.insert id (.ofList (stream.replay.take relay.capacity)) }, subscriber)
    else ({ numbered with queues := numbered.queues.insert id (.ofList []) }, subscriber)
  | none => ({ numbered with queues := numbered.queues.insert id (.ofList []) }, subscriber)

/-- Joins the stream under a key. It does not need a publisher yet. -/
def subscribe (relay : Relay) (key : String) : Relay × Subscriber :=
  let (invited, invitation) := relay.invite key
  invited.accept invitation

/-- Puts a packet at the end of a queue that has room for it. -/
def enqueue (relay : Relay) (packet : Packet) (id : Nat) : Relay :=
  let queue := relay.queue id
  if queue.size < relay.capacity then { relay with queues := relay.queues.insert id (queue.push packet) }
  else relay

/-- Sends a packet to everybody on the publisher's stream. -/
def send (relay : Relay) (publisher : Publisher) (packet : Packet) : Relay :=
  match relay.stream? publisher.key with
  | none => relay
  | some stream =>
    if stream.serial = publisher.serial then
      stream.sinks.foldl (fun relay id => relay.enqueue packet id)
        (relay.setStream publisher.key (stream.keep packet))
    else relay

/-- Gives up a publisher's claim. Its subscribers can still take what is queued. -/
def dropPublisher (relay : Relay) (publisher : Publisher) : Relay :=
  match relay.stream? publisher.key with
  | none => relay
  | some stream =>
    relay.settle publisher.key (if stream.publisher = some publisher.id then stream.vacate else stream)

def dropSubscriber (relay : Relay) (subscriber : Subscriber) : Relay :=
  let left := { relay with queues := relay.queues.erase subscriber.id }
  match left.stream? subscriber.key with
  | none => left
  | some stream => left.settle subscriber.key { stream with sinks := stream.sinks.filter (· ≠ subscriber.id) }

/-- Whether a subscriber is still reached by its stream. -/
def isJoined (relay : Relay) (subscriber : Subscriber) : Bool :=
  (relay.stream? subscriber.key).any (·.sinks.contains subscriber.id)

/-- What a subscriber finds in its queue. The queue is closed once its publisher has left and everything has
been taken. -/
inductive Delivery where
  | packet (packet : Packet)
  | empty
  | closed

def receive (relay : Relay) (subscriber : Subscriber) : Relay × Delivery :=
  match (relay.queue subscriber.id).pop? with
  | some (packet, rest) => ({ relay with queues := relay.queues.insert subscriber.id rest }, .packet packet)
  | none => (relay, if relay.isJoined subscriber then .empty else .closed)

end Relay
end RtmpRelay
