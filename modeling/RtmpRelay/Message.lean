import RtmpRelay.Protocol

/-! Whole messages, and the ones that control the connection itself. -/

namespace RtmpRelay

structure Message where
  chunkStream : UInt32
  timestamp : UInt32
  typeId : UInt8
  streamId : UInt32
  payload : Bytes
deriving DecidableEq

namespace Message

/-- Control messages go on a chunk stream and a message stream of their own, without a time. -/
def control (type : MessageType) (payload : Bytes) : Message :=
  ⟨controlChunkStream, 0, type.id, controlMessageStream, payload⟩

def word (value : UInt32) : Bytes :=
  Bytes.be 4 value.toNat

def setChunkSize (size : UInt32) : Message :=
  control .setChunkSize (word size)

def acknowledgement (received : UInt32) : Message :=
  control .acknowledgement (word received)

def windowAckSize (size : UInt32) : Message :=
  control .windowAckSize (word size)

def setPeerBandwidth (size : UInt32) (limitType : UInt8) : Message :=
  control .setPeerBandwidth (word size ++ [limitType])

def userControl (event : UInt16) (data : Bytes) : Message :=
  control .userControl (Bytes.be 2 event.toNat ++ data)

def streamBegin (streamId : UInt32) : Message :=
  userControl UserEvent.streamBegin.id (word streamId)

def streamEnd (streamId : UInt32) : Message :=
  userControl UserEvent.streamEnd.id (word streamId)

def streamIsRecorded (streamId : UInt32) : Message :=
  userControl UserEvent.streamIsRecorded.id (word streamId)

def pingResponse (timestamp : UInt32) : Message :=
  userControl UserEvent.pingResponse.id (word timestamp)

def command (chunkStream streamId : UInt32) (payload : Bytes) : Message :=
  ⟨chunkStream, 0, MessageType.amf0Command.id, streamId, payload⟩

end Message
end RtmpRelay
