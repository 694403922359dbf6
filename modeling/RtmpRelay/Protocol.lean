import RtmpRelay.Bytes

/-! The numbers that both ends of a connection agree on. -/

namespace RtmpRelay

def protocolVersion : UInt8 := 3

def minChunkSize : UInt32 := 1
def maxChunkSize : UInt32 := 0x7fffffff

/-- The chunk size of either direction until a message sets another. -/
def initialChunkSize : UInt32 := 128

/-- A timestamp field of three bytes holds less than this; from here on the field has this value and four
more bytes follow the header. -/
def shortTimestampEnd : Nat := 0xffffff

/-- The longest payload that the length field of a message can announce. -/
def maxMessageLength : Nat := 0xffffff

def controlChunkStream : UInt32 := 2
def audioChunkStream : UInt32 := 4
def videoChunkStream : UInt32 := 6
def controlMessageStream : UInt32 := 0

/-- The only message stream that is ever handed out. -/
def mediaMessageStream : UInt32 := 1

inductive MessageType where
  | setChunkSize
  | abort
  | acknowledgement
  | userControl
  | windowAckSize
  | setPeerBandwidth
  | audio
  | video
  | amf3Data
  | amf3SharedObject
  | amf3Command
  | amf0Data
  | amf0SharedObject
  | amf0Command
  | aggregate
deriving DecidableEq

namespace MessageType

def id : MessageType → UInt8
  | .setChunkSize => 1
  | .abort => 2
  | .acknowledgement => 3
  | .userControl => 4
  | .windowAckSize => 5
  | .setPeerBandwidth => 6
  | .audio => 8
  | .video => 9
  | .amf3Data => 15
  | .amf3SharedObject => 16
  | .amf3Command => 17
  | .amf0Data => 18
  | .amf0SharedObject => 19
  | .amf0Command => 20
  | .aggregate => 22

def ofId? (id : UInt8) : Option MessageType :=
  match id.toNat with
  | 1 => some .setChunkSize
  | 2 => some .abort
  | 3 => some .acknowledgement
  | 4 => some .userControl
  | 5 => some .windowAckSize
  | 6 => some .setPeerBandwidth
  | 8 => some .audio
  | 9 => some .video
  | 15 => some .amf3Data
  | 16 => some .amf3SharedObject
  | 17 => some .amf3Command
  | 18 => some .amf0Data
  | 19 => some .amf0SharedObject
  | 20 => some .amf0Command
  | 22 => some .aggregate
  | _ => none

@[simp] theorem ofId?_id (type : MessageType) : ofId? type.id = some type := by
  cases type <;> rfl

theorem id_of_ofId? {id : UInt8} {type : MessageType} (known : ofId? id = some type) : type.id = id := by
  rw [← UInt8.toNat_inj]
  unfold ofId? at known
  split at known <;> cases known
  all_goals exact Eq.symm (by assumption)

end MessageType

/-- What a user control message reports. -/
inductive UserEvent where
  | streamBegin
  | streamEnd
  | streamIsRecorded
  | pingRequest
  | pingResponse
deriving DecidableEq

def UserEvent.id : UserEvent → UInt16
  | .streamBegin => 0
  | .streamEnd => 1
  | .streamIsRecorded => 4
  | .pingRequest => 6
  | .pingResponse => 7

end RtmpRelay
