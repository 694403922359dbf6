import RtmpRelay.Amf.Amf0

/-!
Writing values in the older encoding. Bytes are only ever appended, and what was written before a failure
stays written. Every writer of a value answers how many bytes it takes it to have appended.
-/

namespace RtmpRelay.Amf.Amf0

abbrev Writer := EStateM Error (Array UInt8)

namespace Writer

def put (added : Bytes) : Writer Unit :=
  modify fun (out : Array UInt8) => out ++ added

def marker (marker : Marker) : Writer Unit :=
  put [marker.toByte]

/-- The name of a class or of a property. Only the short length is possible here. -/
def key (text : String) : Writer Nat := do
  let encoded := Text.Utf8.encode text
  if encoded.length ≤ shortTextMax then
    put (Bytes.be 2 encoded.length)
    put encoded
    return 2 + encoded.length
  else throw (.unencodable (.key encoded.length))

/-- A length of four bytes, or the given error when it does not fit. -/
def checkedLength (length : Nat) (oversize : Nat → Oversize) : Writer Unit :=
  if length < UInt32.size then pure () else throw (.unencodable (oversize length))

def string (text : String) : Writer Nat := do
  let encoded := Text.Utf8.encode text
  if encoded.length ≤ shortTextMax then
    marker .string
    return 1 + (← key text)
  else
    checkedLength encoded.length .string
    marker .longString
    put (Bytes.be 4 encoded.length)
    put encoded
    return 5 + encoded.length

end Writer

open Writer in
mutual
def encode : Value → Writer Nat
  | .number value => do
    marker .number
    put value.toBytes
    return 9
  | .boolean value => do
    marker .boolean
    put [if value then 1 else 0]
    return 2
  | .string text => string text
  | .object properties => do
    marker .object
    return 1 + (← encodeProperties properties)
  | .null => do
    marker .null
    return 1
  | .undefined => do
    marker .undefined
    return 1
  | .ecmaArray properties => do
    checkedLength properties.length .ecmaArray
    marker .ecmaArray
    put (Bytes.be 4 properties.length)
    return 5 + (← encodeProperties properties)
  | .strictArray items => do
    checkedLength items.length .strictArray
    marker .strictArray
    put (Bytes.be 4 items.length)
    return 5 + (← encodeBatch items)
  | .date milliseconds => do
    marker .date
    put milliseconds.toBytes
    put [0, 0]
    return 11
  | .typedObject className properties => do
    marker .typedObject
    let named ← key className
    return 1 + named + (← encodeProperties properties)

def encodeBatch : List Value → Writer Nat
  | [] => return 0
  | value :: rest => return (← encode value) + (← encodeBatch rest)

/-- The properties, an empty name and the end marker. -/
def encodeProperties : List (String × Value) → Writer Nat
  | [] => do
    put [0, 0, Marker.objectEnd.toByte]
    return 3
  | (name, value) :: rest => return (← key name) + (← encode value) + (← encodeProperties rest)
end

/-- The bytes of a list of values, one after another. -/
def toBytes (values : List Value) : Except Error Bytes :=
  match encodeBatch values #[] with
  | .ok _ out => .ok out.toList
  | .error error _ => .error error

end RtmpRelay.Amf.Amf0
