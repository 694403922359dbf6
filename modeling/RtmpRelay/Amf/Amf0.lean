import RtmpRelay.Amf.Amf3

/-!
The older of the two encodings, in which commands and metadata are written. Each value starts with a marker.
One of the markers hands the value over to the newer encoding, and how an object is looked up there is left
open first.
-/

namespace RtmpRelay.Amf.Amf0

/-- The longest text with a length of two bytes. -/
def shortTextMax : Nat := 0xffff

inductive Marker where
  | number
  | boolean
  | string
  | object
  | movieClip
  | null
  | undefined
  | reference
  | ecmaArray
  | objectEnd
  | strictArray
  | date
  | longString
  | unsupported
  | recordSet
  | xmlDocument
  | typedObject
  | avmPlus
deriving DecidableEq

namespace Marker

def toByte : Marker → UInt8
  | .number => 0x00
  | .boolean => 0x01
  | .string => 0x02
  | .object => 0x03
  | .movieClip => 0x04
  | .null => 0x05
  | .undefined => 0x06
  | .reference => 0x07
  | .ecmaArray => 0x08
  | .objectEnd => 0x09
  | .strictArray => 0x0a
  | .date => 0x0b
  | .longString => 0x0c
  | .unsupported => 0x0d
  | .recordSet => 0x0e
  | .xmlDocument => 0x0f
  | .typedObject => 0x10
  | .avmPlus => 0x11

def ofByte? (byte : UInt8) : Option Marker :=
  match byte.toNat with
  | 0x00 => some .number
  | 0x01 => some .boolean
  | 0x02 => some .string
  | 0x03 => some .object
  | 0x04 => some .movieClip
  | 0x05 => some .null
  | 0x06 => some .undefined
  | 0x07 => some .reference
  | 0x08 => some .ecmaArray
  | 0x09 => some .objectEnd
  | 0x0a => some .strictArray
  | 0x0b => some .date
  | 0x0c => some .longString
  | 0x0d => some .unsupported
  | 0x0e => some .recordSet
  | 0x0f => some .xmlDocument
  | 0x10 => some .typedObject
  | 0x11 => some .avmPlus
  | _ => none

@[simp] theorem ofByte?_toByte (marker : Marker) : ofByte? marker.toByte = some marker := by
  cases marker <;> rfl

theorem toByte_of_ofByte? {byte : UInt8} {marker : Marker} (known : ofByte? byte = some marker) :
    marker.toByte = byte := by
  rw [← UInt8.toNat_inj]
  unfold ofByte? at known
  split at known <;> cases known
  all_goals exact Eq.symm (by assumption)

end Marker

/-- The steps that a reader of this encoding is put together from. -/
structure Parts (m : Type → Type) extends Loops m where
  take : Nat → m Bytes
  byte : m UInt8

namespace Parts
variable {m : Type → Type} [Monad m] (parts : Parts m)

/-- A property name, or nothing at the end of an object: an empty name and an end marker. -/
def name : m (Option String) := do
  let text ← sizedTextVia parts.take 2
  if text = "" then
    let marker ← parts.byte
    if marker = Marker.objectEnd.toByte then return none else parts.refuse (.invalidMarker marker)
  else return some text

def properties (value : m Value) : m Properties :=
  return Assoc.ofEntries (← parts.entries parts.name value)

/-- What stands behind a marker, given a reader of the values inside it and one of a value in the newer
encoding. The count of an ECMA array is not relied on, and the time zone of a date is dropped. -/
def marked (value escaped : m Value) (byte : UInt8) : m Value :=
  match Marker.ofByte? byte with
  | some .number => return .number (← doubleVia parts.take)
  | some .boolean => return .boolean ((← parts.byte) ≠ 0)
  | some .string => return .string (← sizedTextVia parts.take 2)
  | some .object => return .object (← parts.properties value)
  | some .null => return .null
  | some .undefined => return .undefined
  | some .reference => parts.refuse (.notImplemented .reference)
  | some .ecmaArray => do
    let _ ← naturalVia parts.take 4
    return .ecmaArray (← parts.properties value)
  | some .strictArray => do
    let count ← naturalVia parts.take 4
    return .strictArray (← parts.repeated value count)
  | some .date => do
    let milliseconds ← doubleVia parts.take
    let _ ← parts.take 2
    return .date milliseconds
  | some .longString | some .xmlDocument => return .string (← sizedTextVia parts.take 4)
  | some .typedObject => do
    let className ← sizedTextVia parts.take 2
    return .typedObject className (← parts.properties value)
  | some .avmPlus => escaped
  | some .movieClip | some .unsupported | some .recordSet => parts.refuse (.unsupportedType byte)
  | some .objectEnd | none => parts.refuse (.invalidMarker byte)

end Parts

def parts : Parts Reader where
  toLoops := loops id
  take := Reader.take
  byte := Reader.byte

/-- A value in the newer encoding, with tables of its own. If it cannot be read, none of its bytes are
taken. -/
def escapedVia (refer : (index : Nat) → Amf3.Reader Value) (room : Nat) : Reader Value := fun unread =>
  match Amf3.valueVia refer room (.ofBytes unread) with
  | .ok value state => .ok value state.unread
  | .error error _ => .error error unread

def escaped : (room : Nat) → Reader Value :=
  escapedVia (Amf3.entry Amf3.State.objects)

def valuesFrom (value : Reader Value) : Bytes → Array Value → Reader (List Value)
  | [], values => return values.toList
  | _ :: rounds, values => do
    if (← get).isEmpty then return values.toList
    else
      let next ← value
      valuesFrom value rounds (values.push next)

section Reading
variable (escape : (room : Nat) → Reader Value)

/-- Reads one value that may itself be nested `room` deep, and one in the newer encoding in the given way. -/
def valueVia : (room : Nat) → Reader Value
  | 0 => throw .nestingTooDeep
  | room + 1 => do parts.marked (valueVia room) (escape room) (← Reader.byte)

def nextVia : Reader Value :=
  valueVia escape maxDepth

/-- Values up to the end of the input, which may come between two of them only. A value takes at least one
byte, so there are no more of them than bytes. -/
def valuesVia : Reader (List Value) := do
  valuesFrom (nextVia escape) (← get) #[]

def decodeVia (bytes : Bytes) : Except Error (Value × Nat) :=
  match nextVia escape bytes with
  | .ok value rest => .ok (value, bytes.length - rest.length)
  | .error error _ => .error error

def decodeBatchVia (bytes : Bytes) : Except Error (List Value) :=
  match valuesVia escape bytes with
  | .ok values _ => .ok values
  | .error error _ => .error error

end Reading

def value : (room : Nat) → Reader Value :=
  valueVia escaped

def next : Reader Value :=
  nextVia escaped

def values : Reader (List Value) :=
  valuesVia escaped

/-- The value at the front of the input and how many bytes it takes. -/
def decode (bytes : Bytes) : Except Error (Value × Nat) :=
  decodeVia escaped bytes

def decodeBatch (bytes : Bytes) : Except Error (List Value) :=
  decodeBatchVia escaped bytes

theorem value_succ (room : Nat) :
    value (room + 1) = (do parts.marked (value room) (escaped room) (← Reader.byte)) :=
  rfl

theorem next_eq : next = value maxDepth :=
  rfl

theorem decode_eq (bytes : Bytes) : decode bytes =
    match next bytes with
    | .ok value rest => .ok (value, bytes.length - rest.length)
    | .error error _ => .error error :=
  rfl

theorem decodeBatch_eq (bytes : Bytes) : decodeBatch bytes =
    match values bytes with
    | .ok values _ => .ok values
    | .error error _ => .error error :=
  rfl

end RtmpRelay.Amf.Amf0
