import RtmpRelay.Amf.Amf0
import RtmpRelay.Flv.Audio
import RtmpRelay.Flv.Video
import RtmpRelay.Message

/-! Media on its way from a publisher to the players: the payload as it came, with what its head says. -/

namespace RtmpRelay

inductive PacketKind where
  | audio
  | video
  | metadata
deriving DecidableEq

namespace PacketKind

def ofMessageType? (id : UInt8) : Option PacketKind :=
  match MessageType.ofId? id with
  | some .audio => some .audio
  | some .video => some .video
  | some .amf0Data | some .amf3Data => some .metadata
  | _ => none

/-- The type under which packets are sent on. Metadata is always sent in the older encoding. -/
def messageType : PacketKind → MessageType
  | .audio => .audio
  | .video => .video
  | .metadata => .amf0Data

def chunkStream : PacketKind → UInt32
  | .audio => audioChunkStream
  | .video | .metadata => videoChunkStream

def name : PacketKind → String
  | .audio => "audio"
  | .video => "video"
  | .metadata => "metadata"

end PacketKind

namespace Flv

inductive Tag where
  | audio (tag : AudioTag)
  | video (tag : VideoTag)
deriving DecidableEq

def Tag.isSequenceHeader : Tag → Bool
  | .audio tag => tag.isSequenceHeader
  | .video tag => tag.isSequenceHeader

/-- Metadata has no tag. -/
def Tag.parse (kind : PacketKind) (payload : Bytes) : Except TagError (Option Tag) :=
  match kind with
  | .audio => return some (.audio (← AudioTag.parse payload))
  | .video => return some (.video (← VideoTag.parse payload))
  | .metadata => return none

/-- The text that metadata starts with, and how many bytes it takes. -/
def metadataName (payload : Bytes) : Except TagError (String × Nat) :=
  match Amf.Amf0.decode payload with
  | .error error => throw (.invalid (.metadata error))
  | .ok (.string name, size) => return (name, size)
  | .ok (other, _) => throw (.invalid (.metadataName other))

/-- Publishers put this name before metadata that the server shall keep. -/
def setDataFrame : String := "@setDataFrame"

/-- Metadata as players get it. -/
def stripSetDataFrame (payload : Bytes) : Except TagError Bytes := do
  let (name, size) ← metadataName payload
  return if name = setDataFrame then payload.drop size else payload

end Flv

structure Packet where
  kind : PacketKind
  streamId : UInt32
  timestamp : UInt32
  payload : Bytes
  tag : Option Flv.Tag
deriving DecidableEq

namespace Packet

/-- A packet whose head cannot be read is passed on without a tag. -/
def ofPayload (kind : PacketKind) (streamId timestamp : UInt32) (payload : Bytes) : Packet :=
  ⟨kind, streamId, timestamp, payload, (Flv.Tag.parse kind payload).toOption.join⟩

/-- A decoder configuration, without which a player that joins later could show nothing. -/
def isSequenceHeader (packet : Packet) : Bool :=
  packet.tag.any Flv.Tag.isSequenceHeader

def summary (packet : Packet) : String :=
  packet.kind.name ++
    s!" packet, stream {packet.streamId}, ts {packet.timestamp}, {packet.payload.length} bytes"

/-- The message that takes the packet to a player. Metadata whose name cannot be read stays as it is. -/
def toMessage (packet : Packet) : Message where
  chunkStream := packet.kind.chunkStream
  timestamp := packet.timestamp
  typeId := packet.kind.messageType.id
  streamId := packet.streamId
  payload :=
    match packet.kind with
    | .metadata => (Flv.stripSetDataFrame packet.payload).toOption.getD packet.payload
    | _ => packet.payload

end Packet
end RtmpRelay
