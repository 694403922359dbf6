import RtmpRelay.Chunk.BasicHeader
import RtmpRelay.Message

/-!
Putting messages together again. A chunk stream remembers the header of its last message, so that later
headers can leave fields out, and the payload of the message that is still arriving.
-/

namespace RtmpRelay

/-- `clock` is the absolute time of the current message, `delta` its step from the one before. `lastFormat`
is the format of the last header that carried a time, and `isExtended` whether that time took four more
bytes. Payload bytes are kept in reverse. The buffer is as long as the message until the payload is moved
out. -/
structure ChunkStream where
  id : UInt32
  clock : UInt32
  length : Nat
  typeId : UInt8
  streamId : UInt32
  lastFormat : Chunk.Format
  isExtended : Bool
  delta : UInt32
  received : Nat
  reversed : Bytes
  capacity : Nat
deriving DecidableEq

namespace ChunkStream
open Chunk (Format Reader)

def new (id : UInt32) : ChunkStream :=
  ⟨id, 0, 0, 0, 0, .full, false, 0, 0, [], 0⟩

/-- A message is complete once every byte of its payload has arrived. -/
def isComplete (stream : ChunkStream) : Bool :=
  stream.received = stream.length

/-- The buffer of the message, zero where nothing has arrived yet. It is moved out as a whole. -/
def payload (stream : ChunkStream) : Bytes :=
  stream.reversed.reverse ++ List.replicate (stream.capacity - stream.reversed.length) 0

def begin (stream : ChunkStream) : ChunkStream :=
  { stream with received := 0, reversed := [], capacity := stream.length }

/-- A time of three bytes, or of the four after the header if it has all ones. Also answers whether and how
many further bytes it took. -/
def readTime (short : Nat) : Reader (UInt32 × Bool × Nat) := do
  if short = shortTimestampEnd then return (UInt32.ofNat (← Reader.be 4), true, 4)
  else return (UInt32.ofNat short, false, 0)

/-- Takes over a message header. A bare header in the middle of a message only continues it; one that opens
a message repeats the last step in time. Answers how many bytes the header takes. -/
def readHeader (stream : ChunkStream) (format : Format) : Reader (ChunkStream × Nat) := do
  match format with
  | .full =>
    let short ← Reader.be 3
    let length ← Reader.be 3
    let typeId ← Reader.byte
    let streamId ← Reader.le 4
    let (clock, isExtended, more) ← readTime short
    return (begin { stream with
      clock, length, typeId, isExtended
      streamId := UInt32.ofNat streamId
      delta := 0
      lastFormat := format }, 11 + more)
  | .sameStream =>
    let short ← Reader.be 3
    let length ← Reader.be 3
    let typeId ← Reader.byte
    let (delta, isExtended, more) ← readTime short
    return (begin { stream with
      clock := stream.clock + delta
      length, typeId, isExtended, delta
      lastFormat := format }, 7 + more)
  | .sameLength =>
    let short ← Reader.be 3
    let (delta, isExtended, more) ← readTime short
    return (begin { stream with
      clock := stream.clock + delta
      isExtended, delta
      lastFormat := format }, 3 + more)
  | .bare =>
    let time ← if stream.isExtended then pure (some (UInt32.ofNat (← Reader.be 4))) else pure none
    let size := if stream.isExtended then 4 else 0
    if stream.isComplete then
      let clock :=
        match stream.lastFormat with
        | .full => time.getD stream.clock
        | _ => stream.clock + time.getD stream.delta
      return (begin { stream with clock }, size)
    else return (stream, size)

/-- Takes over one chunk, whose basic header has been read. Answers how many bytes it takes. -/
def readChunk (stream : ChunkStream) (format : Format) (chunkSize : Nat) : Reader (ChunkStream × Nat) := do
  let (opened, size) ← stream.readHeader format
  let count := min (opened.length - opened.received) chunkSize
  let piece ← Reader.take count
  return ({ opened with
    received := opened.received + count
    reversed := piece.reverseAux opened.reversed }, size + count)

def message (stream : ChunkStream) : Message :=
  ⟨stream.id, stream.clock, stream.typeId, stream.streamId, stream.payload⟩

/-- The stream after its payload has been moved out. -/
def taken (stream : ChunkStream) : ChunkStream :=
  { stream with reversed := [], capacity := 0 }

end ChunkStream
end RtmpRelay
