import RtmpRelay.Chunk.Split
import RtmpRelay.Connection.Handling
import RtmpRelay.Packet

/-!
A connection together with the bytes that have come in and gone out. Whole chunks are taken or nothing: as
long as bytes are missing an action stops without a trace of the part that is there, and can be asked again
when more have come. Once the client has closed its side, missing bytes are an error.
-/

namespace RtmpRelay

/-- What an observer of the traffic sees. -/
inductive Event where
  | chunk (chunkStream : UInt32) (format : Chunk.Format) (bytes : Nat)
  | message (message : Message)
  | packet (packet : Packet)

structure Endpoint where
  connection : Connection
  inbound : Bytes
  ended : Bool
  outbound : Array UInt8
  events : Array Event

/-- Why an action did not come to its end: it failed, or it waits for bytes. -/
inductive Stop where
  | failed (error : Error)
  | waiting

abbrev Action := EStateM Stop Endpoint

namespace Endpoint

def new (settings : ConnectionSettings) : Endpoint :=
  ⟨.new settings, [], false, #[], #[]⟩

def feed (endpoint : Endpoint) (bytes : Bytes) : Endpoint :=
  { endpoint with inbound := endpoint.inbound ++ bytes }

def close (endpoint : Endpoint) : Endpoint :=
  { endpoint with ended := true }

def connection? : Action Connection :=
  return (← get).connection

def update (change : Connection → Connection) : Action Unit :=
  modify fun endpoint => { endpoint with connection := change endpoint.connection }

def fail (error : Error) : Action α :=
  throw (.failed error)

/-- Bytes are missing. -/
def starve : Action α := do
  if (← get).ended then fail (.transport .unexpectedEnd) else throw .waiting

def lift (result : Except Error α) : Action α :=
  match result with
  | .ok value => return value
  | .error error => fail error

def receive (reader : Chunk.Reader α) : Action α := fun endpoint =>
  match reader endpoint.inbound with
  | some (value, rest) => .ok value { endpoint with inbound := rest }
  | none => starve endpoint

def write (bytes : Bytes) : Action Unit :=
  modify fun endpoint => { endpoint with outbound := endpoint.outbound ++ bytes }

def observe (event : Event) : Action Unit :=
  modify fun endpoint => { endpoint with events := endpoint.events.push event }

/-- Sends a message as a whole or not at all, through a transport that may fail. A new chunk size holds from the next
message on. -/
def sendVia (put : Bytes → Action Unit) (message : Message) : Action Unit := do
  put (← lift (message.toBytes (← connection?).outChunkSize))
  if message.typeId = MessageType.setChunkSize.id then
    if let [_, _, _, _] := message.payload then
      let size := UInt32.ofNat (Bytes.beValue message.payload)
      update fun connection => { connection with outChunkSize := size }

def handlingVia (put : Bytes → Action Unit) : Handling Action where
  refuse := fail
  connection := connection?
  update := update
  send := sendVia put

def handleVia (put : Bytes → Action Unit) (message : Message) : Action Unit :=
  (handlingVia put).handle message

def send (message : Message) : Action Unit :=
  sendVia write message

def handle (message : Message) : Action Unit :=
  handleVia write message

def handshakeFrom (random : Bytes) : Nat → Handshake.Stage → Action Unit
  | 0, _ => return
  | stages + 1, stage => do
    update fun connection => { connection with phase := .handshaking stage }
    let received ← receive (Chunk.Reader.take stage.awaited)
    match Handshake.answer random stage received with
    | .error error =>
      update fun connection => { connection with phase := .handshaking .version }
      fail error
    | .ok (bytes, next) =>
      write bytes
      match next with
      | some stage => handshakeFrom random stages stage
      | none => update fun connection => { connection with phase := .readingHeader }

/-- Goes through the three stages of the handshake, from the one that is reached. -/
def handshake (random : Bytes) : Action Unit := do
  match (← connection?).phase with
  | .handshaking stage => handshakeFrom random 3 stage
  | _ => fail (.violation .handshakeRepeated)

/-- Takes one chunk, and gives the message that it completes. The chunk is acknowledged, if that is due,
before the message is given. -/
def readChunk : Action (Option Message) := do
  let connection ← connection?
  let (header, stream, size) ← receive connection.nextChunk
  let (connection, acknowledgement) := connection.keep header.chunkStream stream size
  update fun _ => connection
  observe (.chunk header.chunkStream header.format size)
  acknowledgement.forM send
  if stream.isComplete then
    let message := stream.message
    observe (.message message)
    return some message
  else return none

def readMessageFrom : Bytes → Action Message
  | [] => starve
  | _ :: rounds => do
    match ← readChunk with
    | some message => return message
    | none => readMessageFrom rounds

/-- Takes chunks up to the first that completes a message. Every chunk takes a byte at least, so there are
no more rounds than bytes. -/
def readMessage : Action Message := do
  readMessageFrom (← get).inbound

def readHeaderFrom (rounds : Bytes) : Action Unit := do
  if (← connection?).phase = .readingHeader then
    match rounds with
    | [] => starve
    | _ :: rounds =>
      handle (← readMessage)
      readHeaderFrom rounds

/-- Handles messages until the client publishes, plays or closes the stream. -/
def readHeader : Action Unit := do
  if let .handshaking _ := (← connection?).phase then fail (.violation .handshakeMissing)
  readHeaderFrom (← get).inbound

/-- Whether the client has sent anything more; nothing is taken. -/
def waitInbound : Action Bool := do
  let endpoint ← get
  if !endpoint.inbound.isEmpty then return true
  else if endpoint.ended then return false
  else throw .waiting

/-- What a message is worth to the players: a packet, nothing because its metadata has no name, or it is
none of the media. -/
inductive Media where
  | packet (packet : Packet)
  | nameless
  | other

def media (message : Message) : Media :=
  match PacketKind.ofMessageType? message.typeId with
  | none => .other
  | some kind =>
    let payload :=
      if message.typeId = MessageType.amf3Data.id then message.payload.drop 1 else message.payload
    if kind = .metadata ∧ (Flv.metadataName payload).toOption.isNone then .nameless
    else .packet (.ofPayload kind message.streamId message.timestamp payload)

/-- Takes one message: gives its packet, or handles it if it is none of the media. -/
def readMedia : Action (Option Packet) := do
  let message ← readMessage
  match media message with
  | .packet packet =>
    observe (.packet packet)
    return some packet
  | .nameless => return none
  | .other =>
    handle message
    return none

def readPacketFrom (rounds : Bytes) : Action (Option Packet) := do
  if (← connection?).phase = .closed then return none
  else
    match rounds with
    | [] => starve
    | _ :: rounds =>
      match ← readMedia with
      | some packet => return some packet
      | none => readPacketFrom rounds

/-- The next packet, or nothing once the client has closed the stream. -/
def readPacket : Action (Option Packet) := do
  readPacketFrom (← get).inbound

def writePacket (packet : Packet) : Action Unit :=
  send packet.toMessage

end Endpoint
end RtmpRelay
