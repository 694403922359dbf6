import RtmpRelay.Connection.Basic

/-!
What a message does to a connection and which messages answer it, step by step: what a command sets is noted before
the first answer goes out, and an answer is encoded when its turn comes.
-/

namespace RtmpRelay

namespace Connection

/-- The limit that is announced with the bandwidth: the client may treat it as hard or soft. -/
def dynamicLimit : UInt8 := 2

def controlLength : MessageType → Nat
  | .setPeerBandwidth => 5
  | _ => 4

/-- The number that a control message carries. It is held to its own chunk stream, message stream and length, in this
order. -/
def controlValue (type : MessageType) (message : Message) : Except Error UInt32 := do
  if message.chunkStream ≠ controlChunkStream then
    throw (.violation (.controlChunkStream message.typeId message.chunkStream))
  if message.streamId ≠ controlMessageStream then
    throw (.violation (.controlMessageStream message.typeId message.streamId))
  let want := controlLength type
  if message.payload.length ≠ want then
    throw (.violation (.controlLength message.typeId want message.payload.length))
  return UInt32.ofNat (Bytes.beValue (message.payload.take 4))

def checkChunkSize (size : UInt32) : Except Error Unit :=
  if size < minChunkSize ∨ maxChunkSize < size then throw (.violation (.chunkSize size)) else return

/-- The first argument, which has to be the transaction number of the command. -/
def checkTransaction (command : String) (want : Nat) (arguments : List Amf.Value) : Except Error Unit :=
  if (arguments.head?.bind Amf.Value.number?).any (·.sameNumber (Double.ofNat want)) then return
  else throw (.violation (.transaction command want arguments.head?))

def streamNameArgument (command : String) (want : Nat) (arguments : List Amf.Value) : Except Error String := do
  checkTransaction command want arguments
  match arguments[2]?.bind Amf.Value.string? with
  | some name => return name
  | none => throw (.violation (.noStreamName command))

/-- Commands in the newer encoding start with a format byte; the values after it are in the older one. -/
def commandBody (type : MessageType) (payload : Bytes) : Bytes :=
  match type with
  | .amf3Command => payload.drop 1
  | _ => payload

end Connection

/-- What the steps are made of. -/
structure Handling (m : Type → Type) where
  refuse {α : Type} : Error → m α
  connection : m Connection
  update : (Connection → Connection) → m Unit
  send : Message → m Unit

namespace Handling
variable {m : Type → Type} [Monad m] (on : Handling m) (message : Message) (arguments : List Amf.Value)

def lift {α : Type} (result : Except Error α) : m α :=
  match result with
  | .ok value => return value
  | .error error => on.refuse error

@[simp] theorem lift_ok {α : Type} (value : α) : on.lift (.ok value) = return value :=
  rfl

@[simp] theorem lift_error {α : Type} (error : Error) : on.lift (.error error : Except Error α) = on.refuse error :=
  rfl

def control (type : MessageType) : m Unit := do
  let value ← on.lift (Connection.controlValue type message)
  match type with
  | .setChunkSize =>
    on.lift (Connection.checkChunkSize value)
    on.update fun connection => { connection with remoteChunkSize := value }
  | .windowAckSize => on.update fun connection => { connection with remoteWindowAckSize := value }
  | _ => return

/-- A ping is answered with its own time. Whatever follows the time is ignored, and so are other events. -/
def userControl : m Unit :=
  match message.payload.split? 6 with
  | some (head, _) =>
    if head.take 2 = Bytes.be 2 UserEvent.pingRequest.id.toNat then
      on.send (.pingResponse (UInt32.ofNat (Bytes.beValue (head.drop 2))))
    else return
  | none => return

def connect : m Unit := do
  let connection ← on.connection
  on.lift (Connection.checkTransaction "connect" 1 arguments)
  match arguments[1]? with
  | none => on.refuse (.violation .noCommandObject)
  | some object =>
    let info := ConnectInfo.ofCommandObject object
    on.update fun connection => { connection with info }
    on.send (.windowAckSize connection.windowAckSize)
    on.send (.setPeerBandwidth connection.windowAckSize Connection.dynamicLimit)
    on.send (.setChunkSize connection.localChunkSize)
    on.send (.streamBegin controlMessageStream)
    let result ← on.lift (Reply.connectResult (Double.ofNat 1) info.objectEncoding)
    on.send (.command message.chunkStream message.streamId result)

/-- Any transaction number is answered; a missing one counts as zero. -/
def createStream : m Unit := do
  let transaction := (arguments.head?.bind Amf.Value.number?).getD Double.zero
  on.send (.streamBegin mediaMessageStream)
  let result ← on.lift (Reply.createStreamResult transaction mediaMessageStream)
  on.send (.command message.chunkStream message.streamId result)

def publish : m Unit := do
  let streamName ← on.lift (Connection.streamNameArgument "publish" 5 arguments)
  on.update fun connection => { connection with streamName }
  on.update fun connection => { connection with isPublish := true }
  on.update fun connection => { connection with phase := .publishing }
  let start ← on.lift Reply.publishStart
  on.send (.command message.chunkStream message.streamId start)

def play : m Unit := do
  let connection ← on.connection
  let streamName ← on.lift (Connection.streamNameArgument "play" 4 arguments)
  on.update fun connection => { connection with streamName }
  on.update fun connection => { connection with phase := .playing }
  on.send (.setChunkSize connection.localChunkSize)
  on.send (.streamIsRecorded message.streamId)
  on.send (.streamBegin message.streamId)
  let reset ← on.lift Reply.playReset
  let start ← on.lift Reply.playStart
  on.send (.command message.chunkStream message.streamId reset)
  on.send (.command message.chunkStream message.streamId start)

def request : Option Request → m Unit
  | some .connect => on.connect message arguments
  | some .createStream => on.createStream message arguments
  | some .publish => on.publish message arguments
  | some .play => on.play message arguments
  | some .close => on.update fun connection => { connection with phase := .closed }
  | none => return

def command (type : MessageType) : m Unit := do
  let body := Connection.commandBody type message.payload
  match ← on.lift ((Amf.Amf0.decodeBatch body).mapError .amf) with
  | [] => on.refuse (.violation .emptyCommand)
  | .string name :: arguments => on.request message arguments (Request.ofName? name)
  | first :: _ => on.refuse (.violation (.commandName first))

/-- Media is ignored here, and so are shared objects and aggregates. -/
def handle : m Unit :=
  match MessageType.ofId? message.typeId with
  | none => on.refuse (.unsupportedMessage message.typeId)
  | some type =>
    match type with
    | .setChunkSize | .abort | .acknowledgement | .windowAckSize | .setPeerBandwidth => on.control message type
    | .userControl => on.userControl message
    | .amf0Command | .amf3Command => on.command message type
    | .audio | .video | .amf0Data | .amf3Data | .amf0SharedObject | .amf3SharedObject | .aggregate => return

end Handling
end RtmpRelay
