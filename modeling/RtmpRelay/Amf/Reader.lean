import RtmpRelay.Amf.Error
import RtmpRelay.Amf.Value
import RtmpRelay.Text.Utf8

/-!
Reading from the front of a byte string. What a failed reading had already taken stays taken, so a reader
can be asked again after an error. What the readers of both encodings have in common is put together from a
few steps, whatever these do besides reading.
-/

namespace RtmpRelay.Amf

section Fields
variable {m : Type → Type} [Monad m] (take : Nat → m Bytes)

def naturalVia (width : Nat) : m Nat :=
  return Bytes.beValue (← take width)

def doubleVia : m Double :=
  return Double.ofBytes (← take 8)

def textVia (bytes : Nat) : m String :=
  return Text.Utf8.decode (← take bytes)

/-- Text behind a length of so many bytes. -/
def sizedTextVia (width : Nat) : m String := do
  textVia take (← naturalVia take width)

end Fields

/-- How an input is refused, and how values are read that follow each other: so many of them, or named ones
up to the end that the name reader reports. -/
structure Loops (m : Type → Type) where
  refuse : {α : Type} → Error → m α
  repeated : {α : Type} → m α → Nat → m (List α)
  entries : m (Option String) → m Value → m (List (String × Value))

abbrev Reader := EStateM Error Bytes

namespace Reader

def take (count : Nat) : Reader Bytes := fun unread =>
  match unread.split? count with
  | some (taken, rest) => .ok taken rest
  | none => .error .unexpectedEnd unread

def byte : Reader UInt8
  | [] => .error .unexpectedEnd []
  | first :: rest => .ok first rest

def natural (width : Nat) : Reader Nat :=
  naturalVia take width

def double : Reader Double :=
  doubleVia take

def text (bytes : Nat) : Reader String :=
  textVia take bytes

def sizedText (width : Nat) : Reader String :=
  sizedTextVia take width

end Reader

section Loops
variable {σ : Type}

def repeatedFrom (item : EStateM Error σ α) : Nat → Array α → EStateM Error σ (List α)
  | 0, items => return items.toList
  | count + 1, items => do
    let next ← item
    repeatedFrom item count (items.push next)

/-- So many items, one after another. -/
def repeated (item : EStateM Error σ α) (count : Nat) : EStateM Error σ (List α) :=
  repeatedFrom item count #[]

def entriesFrom (name : EStateM Error σ (Option String)) (value : EStateM Error σ Value) :
    Bytes → Array (String × Value) → EStateM Error σ (List (String × Value))
  | [], _ => throw .unexpectedEnd
  | _ :: rounds, held => do
    match ← name with
    | none => return held.toList
    | some key =>
      let next ← value
      entriesFrom name value rounds (held.push (key, next))

/-- Named values in the order in which they are given. Each of them takes at least two bytes, so one round
for each byte that was left is enough: the input runs out first. -/
def entries (name : EStateM Error σ (Option String)) (value : EStateM Error σ Value) (unread : Bytes) :
    EStateM Error σ (List (String × Value)) :=
  entriesFrom name value unread #[]

def loops (unread : σ → Bytes) : Loops (EStateM Error σ) where
  refuse := throw
  repeated := repeated
  entries name value := do entries name value (unread (← get))

end Loops
end RtmpRelay.Amf
