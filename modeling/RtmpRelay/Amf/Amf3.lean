import RtmpRelay.Amf.Reader

/-!
The newer of the two encodings. Strings, objects and traits that were read once can be referred to again by
their index; the tables last as long as one reader. Integers become numbers, XML becomes text, and an array
with named entries becomes an ECMA array whose dense items are named by their index.
-/

namespace RtmpRelay.Amf.Amf3

/-- Groups of seven bits, each but the last with its top bit set; the fourth byte is taken whole. -/
def groups {m : Type → Type} [Monad m] (byte : m UInt8) : Nat → Nat → m Nat
  | 0, high => return high * 256 + (← byte).toNat
  | more + 1, high => do
    let next ← byte
    let value := high * 128 + next.toNat % 128
    if next.toNat < 128 then return value else groups byte more value

/-- A whole number below two to the 29. -/
def u29 {m : Type → Type} [Monad m] (byte : m UInt8) : m Nat :=
  groups byte 3 0

/-- The two's complement reading of 29 bits. -/
def signed (number : Nat) : Int :=
  if number < 0x10000000 then number else (number : Int) - 0x20000000

/-- Dense items are named by their decimal index. -/
def indexed (items : List Value) : List (String × Value) :=
  items.zipIdx.map fun (item, index) => (toString index, item)

/-- An array, which is a plain one if it has no named entries. -/
def arrayValue (named : List (String × Value)) (dense : List Value) : Value :=
  if named.isEmpty then .strictArray dense else .ecmaArray (Assoc.ofEntries (named ++ indexed dense))

/-- The class of an object: the members every instance lists in this order, and whether others may follow. -/
structure Traits where
  className : String
  isDynamic : Bool
  members : List String

/-- An object of the class. One without a class name is anonymous. -/
def Traits.objectValue (traits : Traits) (named : List (String × Value)) : Value :=
  let properties := Assoc.ofEntries named
  if traits.className = "" then .object properties else .typedObject traits.className properties

/-- The steps that a reader of this encoding is put together from. A container is a value with others inside
it, which takes its index before they are read and is put there after them. -/
structure Parts (m : Type → Type) extends Loops m where
  u29 : m Nat
  double : m Double
  text : Nat → m String
  stringAt : Nat → m String
  keepString : String → m Unit
  traitsAt : Nat → m Traits
  keepTraits : Traits → m Unit
  objectAt : Nat → m Value
  keepObject : Value → m Unit
  container : m Value → m Value

namespace Parts
variable {m : Type → Type} [Monad m] (parts : Parts m)

def string : m String := do
  let header ← parts.u29
  if header % 2 = 0 then parts.stringAt (header / 2)
  else
    let text ← parts.text (header / 2)
    parts.keepString text
    return text

def name : m (Option String) := do
  let text ← parts.string
  return if text = "" then none else some text

/-- A value that may be given as a reference to an earlier one. The reader in place gets the rest of the
header. -/
def shared (inPlace : Nat → m Value) : m Value := do
  let header ← parts.u29
  if header % 2 = 0 then parts.objectAt (header / 2)
  else inPlace (header / 2)

def kept (value : Value) : m Value := do
  parts.keepObject value
  return value

def xml : m Value :=
  parts.shared fun size => do parts.kept (.string (← parts.text size))

def date : m Value :=
  parts.shared fun _ => do parts.kept (.date (← parts.double))

def array (value : m Value) : m Value :=
  parts.shared fun size => parts.container do
    let named ← parts.entries parts.name value
    let dense ← parts.repeated value size
    return arrayValue named dense

def readTraits (header : Nat) : m Traits := do
  if header % 2 = 0 then parts.traitsAt (header / 2)
  else if header / 2 % 2 = 1 then parts.refuse (.notImplemented .externalizable)
  else
    let className ← parts.string
    let members ← parts.repeated parts.string (header / 8)
    let traits := ⟨className, header / 4 % 2 = 1, members⟩
    parts.keepTraits traits
    return traits

def memberValues (value : m Value) (members : List String) : m (List (String × Value)) :=
  members.mapM fun member => return (member, ← value)

/-- The entries that follow the listed members, if any may. -/
def furtherValues (value : m Value) (isDynamic : Bool) : m (List (String × Value)) :=
  if isDynamic then parts.entries parts.name value else return []

def object (value : m Value) : m Value :=
  parts.shared fun header => do
    let traits ← parts.readTraits header
    parts.container do
      let fixed ← memberValues value traits.members
      let further ← parts.furtherValues value traits.isDynamic
      return traits.objectValue (fixed ++ further)

/-- What stands behind a marker, given a reader of the values inside it. -/
def marked (value : m Value) (marker : UInt8) : m Value :=
  match marker.toNat with
  | 0x00 => return .undefined
  | 0x01 => return .null
  | 0x02 => return .boolean false
  | 0x03 => return .boolean true
  | 0x04 => return .ofInt (signed (← parts.u29))
  | 0x05 => return .number (← parts.double)
  | 0x06 => return .string (← parts.string)
  | 0x07 | 0x0b => parts.xml
  | 0x08 => parts.date
  | 0x09 => parts.array value
  | 0x0a => parts.object value
  | 0x0c | 0x0d | 0x0e | 0x0f | 0x10 | 0x11 => parts.refuse (.unsupportedType marker)
  | _ => parts.refuse (.invalidMarker marker)

end Parts

structure State where
  unread : Bytes
  strings : Array String
  objects : Array Value
  traits : Array Traits

abbrev Reader := EStateM Error State

def State.ofBytes (bytes : Bytes) : State :=
  ⟨bytes, #[], #[], #[]⟩

/-- Every string but the empty one is kept in the table. -/
def State.withString (text : String) (state : State) : State :=
  if text = "" then state else { state with strings := state.strings.push text }

def State.withTraits (traits : Traits) (state : State) : State :=
  { state with traits := state.traits.push traits }

def State.withObject (value : Value) (state : State) : State :=
  { state with objects := state.objects.push value }

/-- Reads bytes without touching the tables. -/
def raw (reader : Amf.Reader α) : Reader α := fun state =>
  match reader state.unread with
  | .ok value rest => .ok value { state with unread := rest }
  | .error error rest => .error error { state with unread := rest }

def entry (table : State → Array α) (index : Nat) : Reader α := do
  match (table (← get))[index]? with
  | some held => return held
  | none => throw (.invalidReference index)

/-- Takes the next object index for a value still to be read. Until it is filled, it holds null. -/
def reserve : Reader Nat := do
  modify (State.withObject .null)
  return (← get).objects.size - 1

def fill (slot : Nat) (value : Value) : Reader Unit :=
  modify fun state => { state with objects := state.objects.setIfInBounds slot value }

def container (inside : Reader Value) : Reader Value := do
  let slot ← reserve
  let value ← inside
  fill slot value
  return value

section Reading
variable (refer : (index : Nat) → Reader Value)

/-- The steps with one of them left open: how an object is looked up that is referred to. -/
def partsVia : Parts Reader where
  toLoops := loops State.unread
  u29 := raw (u29 Reader.byte)
  double := raw Reader.double
  text size := raw (Reader.text size)
  stringAt := entry State.strings
  keepString text := modify (State.withString text)
  traitsAt := entry State.traits
  keepTraits traits := modify (State.withTraits traits)
  objectAt := refer
  keepObject value := modify (State.withObject value)
  container := container

/-- Reads one value that may itself be nested `room` deep. -/
def valueVia : (room : Nat) → Reader Value
  | 0 => throw .nestingTooDeep
  | room + 1 => do (partsVia refer).marked (valueVia room) (← raw Reader.byte)

end Reading

/-- An object that is referred to is found in the table. -/
abbrev parts : Parts Reader :=
  partsVia (entry State.objects)

def value : (room : Nat) → Reader Value :=
  valueVia (entry State.objects)

theorem value_succ (room : Nat) : value (room + 1) = (do parts.marked (value room) (← raw Reader.byte)) :=
  rfl

end RtmpRelay.Amf.Amf3
