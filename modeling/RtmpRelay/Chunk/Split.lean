import RtmpRelay.Chunk.BasicHeader
import RtmpRelay.Chunk.Pieces
import RtmpRelay.Message

/-!
Cutting a message into chunks. The first chunk has the full header, the others a bare one. A time too large
for its field is repeated in every chunk of the message.
-/

namespace RtmpRelay

namespace Message
open Chunk

def hasExtendedTime (message : Message) : Bool :=
  shortTimestampEnd ≤ message.timestamp.toNat

def extendedTime (message : Message) : Bytes :=
  if message.hasExtendedTime then Bytes.be 4 message.timestamp.toNat else []

def fullHeader (message : Message) : Bytes :=
  Bytes.be 3 (min message.timestamp.toNat shortTimestampEnd) ++ Bytes.be 3 message.payload.length ++
    [message.typeId] ++ Bytes.le 4 message.streamId.toNat

/-- The chunks of a message, each with at most `chunkSize` bytes of payload. A chunk size of zero counts as
one. -/
def chunks (message : Message) (chunkSize : UInt32) : Except Error (List Bytes) := do
  if maxMessageLength < message.payload.length then
    throw (.violation (.messageLength message.payload.length))
  let full ← BasicHeader.toBytes ⟨.full, message.chunkStream⟩
  let bare ← BasicHeader.toBytes ⟨.bare, message.chunkStream⟩
  let time := message.extendedTime
  let opening := full ++ message.fullHeader ++ time
  let continuation := bare ++ time
  match message.payload.pieces (max chunkSize.toNat 1) with
  | [] => return [opening]
  | first :: rest => return (opening ++ first) :: rest.map (continuation ++ ·)

def toBytes (message : Message) (chunkSize : UInt32) : Except Error Bytes :=
  return (← message.chunks chunkSize).flatten

end Message
end RtmpRelay
