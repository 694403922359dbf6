import RtmpRelay.Bytes

/-!
Double-precision numbers, kept as their bits so that every one of them, not-a-number included, survives a
round trip through the wire. Arithmetic on the values behind the bits is exact, in `Nat`.
-/

namespace RtmpRelay

structure Double where
  bits : UInt64
deriving DecidableEq, Inhabited

namespace Double

/-- What a bit pattern stands for. A finite number is its significand times two to its exponent. -/
inductive Form where
  | nan
  | infinite (negative : Bool)
  | finite (negative : Bool) (significand : Nat) (exponent : Int)
deriving DecidableEq

/-- The leading bit of a normal significand. The fraction is all that stands below it. -/
def leadingBit : Nat := 0x10000000000000

def isNegative (number : Double) : Bool :=
  number.bits.toNat >>> 63 = 1

def exponentField (number : Double) : Nat :=
  number.bits.toNat / leadingBit % 2048

def fraction (number : Double) : Nat :=
  number.bits.toNat % leadingBit

def form (number : Double) : Form :=
  if number.exponentField = 2047 then
    if number.fraction = 0 then .infinite number.isNegative else .nan
  else if number.exponentField = 0 then .finite number.isNegative number.fraction (-1074)
  else .finite number.isNegative (leadingBit + number.fraction) (number.exponentField - 1075)

def isNaN (number : Double) : Bool :=
  number.form = .nan

def ofFields (negative : Bool) (exponent fraction : Nat) : Double :=
  ⟨UInt64.ofNat ((if negative then 1 <<< 63 else 0) + exponent * leadingBit + fraction)⟩

def zero : Double := ⟨0⟩

/-- Rounds to the nearest multiple of two to the `shift`, in that unit; a tie goes to the even one. -/
def roundShift (number shift : Nat) : Nat :=
  let unit := 1 <<< shift
  let quotient := number / unit
  let twice := 2 * (number % unit)
  if unit < twice ∨ unit = twice ∧ quotient % 2 = 1 then quotient + 1 else quotient

/-- The nearest double of a magnitude below two to the 1023. A significand rounded up to the next power of
two carries into the exponent by itself. -/
def ofMagnitude (negative : Bool) (magnitude : Nat) : Double :=
  if magnitude = 0 then ofFields negative 0 0
  else
    let width := magnitude.log2 + 1
    let significand := if width ≤ 53 then magnitude <<< (53 - width) else roundShift magnitude (width - 53)
    ofFields negative (width + 1021) significand

def ofNat (number : Nat) : Double :=
  ofMagnitude false number

/-- The nearest double, a tie going to the one whose last bit is zero. Zero is positive. -/
def ofInt (number : Int) : Double :=
  ofMagnitude (number < 0) number.natAbs

/-- The double with the value of a single-precision number, given by its bits. -/
def ofSingle (bits : UInt32) : Double :=
  let negative := bits.toNat >>> 31 = 1
  let exponent := bits.toNat / 0x800000 % 256
  let fraction := bits.toNat % 0x800000
  if exponent = 255 then
    ofFields negative 2047 (if fraction = 0 then 0 else 1 <<< 51 + (fraction % 0x400000) <<< 29)
  else if exponent ≠ 0 then ofFields negative (exponent + 896) (fraction <<< 29)
  else if fraction = 0 then ofFields negative 0 0
  else
    let width := fraction.log2 + 1
    ofFields negative (width + 872) (fraction <<< (53 - width))

/-- Numeric equality: not-a-number equals nothing, and the two zeros are equal. -/
def sameNumber (first second : Double) : Bool :=
  match first.form, second.form with
  | .nan, _ | _, .nan => false
  | .finite _ 0 _, .finite _ 0 _ => true
  | _, _ => first.bits = second.bits

/-- The whole part, held to the range of 32 bits. Not-a-number gives zero. -/
def toUInt32 (number : Double) : UInt32 :=
  match number.form with
  | .nan => 0
  | .infinite negative => if negative then 0 else 0xffffffff
  | .finite negative significand exponent =>
    if negative then 0
    else
      let whole :=
        if 0 ≤ exponent then significand <<< exponent.toNat else significand >>> (-exponent).toNat
      UInt32.ofNat (min whole 0xffffffff)

def toBytes (number : Double) : Bytes :=
  Bytes.be 8 number.bits.toNat

def ofBytes (bytes : Bytes) : Double :=
  ⟨UInt64.ofNat (Bytes.beValue bytes)⟩

theorem length_toBytes (number : Double) : number.toBytes.length = 8 := by
  simp [toBytes]

end Double
end RtmpRelay
