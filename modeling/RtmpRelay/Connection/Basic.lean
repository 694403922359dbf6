import RtmpRelay.Assoc
import RtmpRelay.Chunk.Stream
import RtmpRelay.Command
import RtmpRelay.Handshake

/-! What the server keeps about one client, apart from the bytes on their way. -/

namespace RtmpRelay

/-- What the operator decides for every connection: the chunk size that is announced and then used, and the
window that is sent both as the acknowledgement size and as the bandwidth. -/
structure ConnectionSettings where
  chunkSize : UInt32
  windowAckSize : UInt32
deriving DecidableEq

def ConnectionSettings.standard : ConnectionSettings :=
  ⟨1024, 2500000⟩

inductive Phase where
  | handshaking (stage : Handshake.Stage)
  | readingHeader
  | publishing
  | playing
  | closed
deriving DecidableEq

/-- Bytes are counted twice: all of them, modulo two to the 32, and those since the last acknowledgement, up
to the largest number of 32 bits. -/
structure Connection where
  phase : Phase
  localChunkSize : UInt32
  outChunkSize : UInt32
  remoteChunkSize : UInt32
  windowAckSize : UInt32
  remoteWindowAckSize : UInt32
  bytesReceived : UInt32
  windowReceived : UInt32
  streams : Assoc UInt32 ChunkStream
  isPublish : Bool
  streamName : String
  info : ConnectInfo
deriving DecidableEq

namespace Connection

def new (settings : ConnectionSettings) : Connection where
  phase := .handshaking .version
  localChunkSize := max minChunkSize (min settings.chunkSize maxChunkSize)
  outChunkSize := initialChunkSize
  remoteChunkSize := initialChunkSize
  windowAckSize := settings.windowAckSize
  remoteWindowAckSize := 0
  bytesReceived := 0
  windowReceived := 0
  streams := []
  isPublish := false
  streamName := ""
  info := .empty

/-- Under this key the stream is known to the relay. -/
def streamKey (connection : Connection) : String :=
  connection.info.app ++ "/" ++ connection.streamName

/-- The chunk stream with an id, as it was left by the chunk before or fresh. -/
def chunkStream (connection : Connection) (id : UInt32) : ChunkStream :=
  (connection.streams.find? id).getD (.new id)

def saturatingAdd (first second : UInt32) : UInt32 :=
  UInt32.ofNat (min (first.toNat + second.toNat) 0xffffffff)

/-- Counts received bytes. Once the client's window is full, an acknowledgement is due. -/
def count (connection : Connection) (bytes : Nat) : Connection × Option Message :=
  let total := connection.bytesReceived + UInt32.ofNat bytes
  let window := saturatingAdd connection.windowReceived (UInt32.ofNat bytes)
  if 0 < connection.remoteWindowAckSize ∧ connection.remoteWindowAckSize ≤ window then
    ({ connection with bytesReceived := total, windowReceived := 0 }, some (.acknowledgement total))
  else ({ connection with bytesReceived := total, windowReceived := window }, none)

/-- The chunk at the front of the input: its basic header, the chunk stream after it, and how many bytes it
takes. -/
def nextChunk (connection : Connection) : Chunk.Reader (Chunk.BasicHeader × ChunkStream × Nat) := do
  let (header, size) ← Chunk.BasicHeader.read
  let stream := connection.chunkStream header.chunkStream
  let (stream, more) ← stream.readChunk header.format connection.remoteChunkSize.toNat
  return (header, stream, size + more)

/-- Keeps a chunk stream after a chunk of so many bytes. The payload of a complete message is moved out. -/
def keep (connection : Connection) (id : UInt32) (stream : ChunkStream) (size : Nat) :
    Connection × Option Message :=
  let kept := if stream.isComplete then stream.taken else stream
  { connection with streams := connection.streams.insert id kept }.count size

end Connection
end RtmpRelay
