/-!
Byte strings and the fixed-width integers written in them. Cutting never looks further than the bytes it
takes, so that reading a long input piece by piece costs one pass over it.
-/

namespace RtmpRelay

abbrev Bytes := List UInt8

namespace Bytes

private def splitFrom : Nat → Bytes → Array UInt8 → Option (Bytes × Bytes)
  | 0, rest, taken => some (taken.toList, rest)
  | _ + 1, [], _ => none
  | count + 1, byte :: rest, taken => splitFrom count rest (taken.push byte)

/-- The first `count` bytes and those after them, when there are that many. -/
def split? (count : Nat) (bytes : Bytes) : Option (Bytes × Bytes) :=
  splitFrom count bytes #[]

private theorem splitFrom_eq (count : Nat) (bytes : Bytes) (taken : Array UInt8) :
    splitFrom count bytes taken =
      if count ≤ bytes.length then some (taken.toList ++ bytes.take count, bytes.drop count) else none := by
  induction count generalizing bytes taken with
  | zero => simp [splitFrom]
  | succ count ih =>
    cases bytes with
    | nil => simp [splitFrom]
    | cons byte rest => simp [splitFrom, ih]

theorem split?_eq (count : Nat) (bytes : Bytes) :
    split? count bytes =
      if count ≤ bytes.length then some (bytes.take count, bytes.drop count) else none := by
  simp [split?, splitFrom_eq]

theorem split?_append (first rest : Bytes) : split? first.length (first ++ rest) = some (first, rest) := by
  simp [split?_eq]

/-- The `width` low bytes of a number, lowest first. -/
def le : Nat → Nat → Bytes
  | 0, _ => []
  | width + 1, number => UInt8.ofNat number :: le width (number / 256)

/-- The `width` low bytes of a number, highest first. -/
def be (width number : Nat) : Bytes :=
  (le width number).reverse

def leValue : Bytes → Nat
  | [] => 0
  | byte :: rest => byte.toNat + 256 * leValue rest

def beValue (bytes : Bytes) : Nat :=
  leValue bytes.reverse

@[simp] theorem length_le (width number : Nat) : (le width number).length = width := by
  induction width generalizing number with
  | zero => rfl
  | succ width ih => simp [le, ih]

@[simp] theorem length_be (width number : Nat) : (be width number).length = width := by
  simp [be]

theorem le_leValue (bytes : Bytes) : le bytes.length (leValue bytes) = bytes := by
  induction bytes with
  | nil => rfl
  | cons byte rest ih =>
    have small : byte.toNat < 256 := byte.toNat_lt
    have quotient : (byte.toNat + 256 * leValue rest) / 256 = leValue rest := by omega
    simp only [List.length_cons, le, leValue, quotient, ih]
    congr 1
    apply UInt8.toNat_inj.mp
    simp only [UInt8.toNat_ofNat']
    omega

theorem be_beValue (bytes : Bytes) : be bytes.length (beValue bytes) = bytes := by
  have := le_leValue bytes.reverse
  rw [List.length_reverse] at this
  rw [be, beValue, this, List.reverse_reverse]

/-- Bytes that are written one after another. -/
theorem append_append (out : Array UInt8) (first second : Bytes) : out ++ first ++ second = out ++ (first ++ second) :=
  Array.ext' (by simp)

end Bytes
end RtmpRelay
