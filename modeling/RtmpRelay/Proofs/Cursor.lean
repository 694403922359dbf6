import RtmpRelay.Amf.Amf0

/-! The decoders of both encodings with the books they keep: a position in the whole input, a counter that goes up and
down with the nesting, and object indices that are reserved before they are filled. What must never happen stops them
with a fault, which is not an answer to any input: a position that goes back or leaves the input, a counter below zero,
an index that is not there or that another container reserved, a loop with no end. -/

namespace RtmpRelay.Amf

inductive Fault where
  | underflow
  | outOfRange
  /-- An object index is written that this container has not reserved. -/
  | foreignIndex
  /-- So many rounds have not been enough. -/
  | endless

inductive Halt where
  | refused (error : Error)
  | broken (fault : Fault)

/-- A decoder between two calls. -/
structure Decoder (τ : Type) where
  input : Bytes
  position : Nat
  depth : Nat
  tables : τ

def Decoder.start (input : Bytes) (depth : Nat) (tables : τ) : Decoder τ :=
  ⟨input, 0, depth, tables⟩

def Decoder.moved (decoder : Decoder τ) (count : Nat) : Decoder τ :=
  { decoder with position := decoder.position + count }

def Decoder.entered (decoder : Decoder τ) : Decoder τ :=
  { decoder with depth := decoder.depth + 1 }

abbrev Decoding (τ : Type) := EStateM Halt (Decoder τ)

namespace Decoding

section Primitives
variable {τ α β : Type}

def refuse (error : Error) : Decoding τ α :=
  throw (.refused error)

def broken (fault : Fault) : Decoding τ α :=
  throw (.broken fault)

/-- How many bytes there are behind the position. -/
def remaining : Decoding τ Nat := do
  let decoder ← get
  if decoder.position ≤ decoder.input.length then return decoder.input.length - decoder.position
  else broken .underflow

def slice (start stop : Nat) : Decoding τ Bytes := do
  let decoder ← get
  if start ≤ stop ∧ stop ≤ decoder.input.length then return (decoder.input.drop start).take (stop - start)
  else broken .outOfRange

/-- Nothing else changes the position. -/
def moveTo (position : Nat) : Decoding τ Unit := do
  let decoder ← get
  if decoder.position ≤ position ∧ position ≤ decoder.input.length then set { decoder with position }
  else broken .outOfRange

def take (count : Nat) : Decoding τ Bytes := do
  if (← remaining) < count then refuse .unexpectedEnd
  else
    let start := (← get).position
    let taken ← slice start (start + count)
    moveTo (start + count)
    return taken

def byte : Decoding τ UInt8 := do
  match ← take 1 with
  | [] => broken .outOfRange
  | first :: _ => return first

/-- Goes back up one level. -/
def leave : Decoding τ Unit := do
  let decoder ← get
  match decoder.depth with
  | 0 => broken .underflow
  | depth + 1 => set { decoder with depth }

/-- One level down, and up again also if the value is refused. -/
def nested (inner : Decoding τ α) : Decoding τ α := do
  let decoder ← get
  if maxDepth ≤ decoder.depth then refuse .nestingTooDeep
  else
    set decoder.entered
    fun entered =>
      match inner entered with
      | .ok value after => (do leave; return value : Decoding τ α) after
      | .error (.refused error) after => (do leave; refuse error : Decoding τ α) after
      | .error (.broken fault) after => .error (.broken fault) after

/-- Rounds up to one that gives a result. -/
def rounds (round : β → Decoding τ (β ⊕ α)) : (fuel : Nat) → β → Decoding τ α
  | 0, _ => broken .endless
  | fuel + 1, held => do
    match ← round held with
    | .inl further => rounds round fuel further
    | .inr result => return result

def itemRound (item : Decoding τ α) : Nat × Array α → Decoding τ ((Nat × Array α) ⊕ List α)
  | (0, items) => return .inr items.toList
  | (missing + 1, items) => return .inl (missing, items.push (← item))

def repeated (item : Decoding τ α) (fuel count : Nat) : Decoding τ (List α) :=
  rounds (itemRound item) fuel (count, #[])

def entryRound (name : Decoding τ (Option String)) (value : Decoding τ Value) (held : Array (String × Value)) :
    Decoding τ (Array (String × Value) ⊕ List (String × Value)) := do
  match ← name with
  | none => return .inr held.toList
  | some key => return .inl (held.push (key, ← value))

def entries (name : Decoding τ (Option String)) (value : Decoding τ Value) (fuel : Nat) :
    Decoding τ (List (String × Value)) :=
  rounds (entryRound name value) fuel #[]

end Primitives

namespace Newer

/-- An object index, with the position at which its container begins as long as that is being read. -/
inductive Slot where
  | reserved (start : Nat)
  | filled (value : Value)

def Slot.value : Slot → Value
  | .reserved _ => .null
  | .filled value => value

/-- What can be referred to. -/
structure References where
  strings : Array String
  objects : Array Slot
  traits : Array Amf3.Traits

namespace References

def empty : References :=
  ⟨#[], #[], #[]⟩

def withString (text : String) (references : References) : References :=
  if text = "" then references else { references with strings := references.strings.push text }

def withTraits (traits : Amf3.Traits) (references : References) : References :=
  { references with traits := references.traits.push traits }

def withObject (slot : Slot) (references : References) : References :=
  { references with objects := references.objects.push slot }

end References

def entry (table : References → Array α) (index : Nat) : Decoding References α := do
  match (table (← get).tables)[index]? with
  | some held => return held
  | none => refuse (.invalidReference index)

def keep (change : References → References) : Decoding References Unit :=
  modify fun decoder => { decoder with tables := change decoder.tables }

/-- Fills the index that the container reserved which begins here. -/
def fill (start slot : Nat) (value : Value) : Decoding References Unit := do
  match (← get).tables.objects[slot]? with
  | some (.reserved owner) =>
    if owner = start then keep fun tables => { tables with objects := tables.objects.setIfInBounds slot (.filled value) }
    else broken .foreignIndex
  | _ => broken .foreignIndex

/-- A value with others inside it, from behind its header. -/
def container (inside : Decoding References Value) : Decoding References Value := do
  let start := (← get).position
  keep (.withObject (.reserved start))
  let slot := (← get).tables.objects.size - 1
  let value ← inside
  fill start slot value
  return value

/-- The steps of the decoder, with so much fuel for each loop. Space is allotted for no more items than there are bytes
left. -/
def parts (fuel : Nat) : Amf3.Parts (Decoding References) where
  refuse := refuse
  repeated item count := do
    let _ ← remaining
    repeated item fuel count
  entries name value := entries name value fuel
  u29 := Amf3.u29 byte
  double := doubleVia take
  text := textVia take
  stringAt := entry References.strings
  keepString text := keep (.withString text)
  traitsAt := entry References.traits
  keepTraits traits := keep (.withTraits traits)
  objectAt index := return (← entry References.objects index).value
  keepObject value := keep (.withObject (.filled value))
  container := container

/-- The fuel bounds the rounds of every loop and the calls inside each other. -/
def decode : (fuel : Nat) → Decoding References Value
  | 0 => broken .endless
  | fuel + 1 => nested do (parts fuel).marked (decode fuel) (← byte)

end Newer

namespace Older

/-- A decoder of its own reads the bytes behind the marker, and the position moves by as much as that one took. -/
def escaped (fuel : Nat) : Decoding Unit Value := do
  let decoder ← get
  let behind ← slice decoder.position decoder.input.length
  match Newer.decode fuel (.start behind decoder.depth .empty) with
  | .ok value inner =>
    moveTo (decoder.position + inner.position)
    return value
  | .error halt _ => throw halt

def parts (fuel : Nat) : Amf0.Parts (Decoding Unit) where
  refuse := refuse
  repeated item count := do
    let _ ← remaining
    repeated item fuel count
  entries name value := entries name value fuel
  take := take
  byte := byte

def decode : (fuel : Nat) → Decoding Unit Value
  | 0 => broken .endless
  | fuel + 1 => nested do (parts fuel).marked (decode fuel) (escaped fuel) (← byte)

def valueRound (value : Decoding Unit Value) (values : Array Value) : Decoding Unit (Array Value ⊕ List Value) := do
  if (← remaining) = 0 then return .inr values.toList
  else return .inl (values.push (← value))

def decodeAll (fuel : Nat) : Decoding Unit (List Value) :=
  rounds (valueRound (decode fuel)) fuel #[]

end Older
end Decoding
end RtmpRelay.Amf
