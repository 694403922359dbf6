import RtmpRelay.Double.Basic

/-!
The fewest decimal digits that read back as a given double. A finite number stands for the interval of
reals that round to it, both ends included when its significand is even. The grids of one, two, three
digits and so on are tried in turn; on a grid only the two neighbours of the number can lie in the interval
nearest to it.
-/

namespace RtmpRelay.Double

/-- A decimal number, its digits times ten to its exponent. -/
structure Decimal where
  digits : Nat
  exponent : Int
deriving DecidableEq

namespace Shortest

/-- A positive number as four times its significand, with the ends of its interval in the same unit. The
gap below a power of two is half the gap above it. -/
structure Interval where
  low : Nat
  middle : Nat
  high : Nat
  exponent : Int
  closed : Bool

def interval (significand : Nat) (exponent : Int) : Interval :=
  let below := if significand = leadingBit ∧ -1074 < exponent then 1 else 2
  ⟨4 * significand - below, 4 * significand, 4 * significand + 2, exponent - 2, significand % 2 = 0⟩

/-- One unit of the decimal grid and one of the interval as whole numbers over a common denominator. -/
def units (exponent grid : Int) : Nat × Nat :=
  (Nat.pow 10 grid.toNat <<< (-exponent).toNat, Nat.pow 10 (-grid).toNat <<< exponent.toNat)

/-- The point of the grid that the number reads back from, if there is one. Of two such points the nearer
is taken, and the larger when both are equally near. -/
def onGrid? (range : Interval) (grid : Int) : Option Decimal :=
  let (step, unit) := units range.exponent grid
  let reads (count : Nat) : Bool :=
    if range.closed then range.low * unit ≤ count * step ∧ count * step ≤ range.high * unit
    else range.low * unit < count * step ∧ count * step < range.high * unit
  let lower := range.middle * unit / step
  match reads lower, reads (lower + 1) with
  | true, true => some ⟨if 2 * range.middle * unit < (2 * lower + 1) * step then lower else lower + 1, grid⟩
  | true, false => some ⟨lower, grid⟩
  | false, true => some ⟨lower + 1, grid⟩
  | false, false => none

def below (range : Interval) (power : Int) : Bool :=
  let (step, unit) := units range.exponent power
  range.middle * unit < step

/-- The least power of ten above a number. The binary logarithm gives a lower bound that is at most two
short. -/
def magnitude (range : Interval) : Int :=
  let least := ((range.middle.log2 : Int) + range.exponent) * 30103 / 100000 - 1
  if below range least then least
  else if below range (least + 1) then least + 1
  else if below range (least + 2) then least + 2
  else least + 3

def exact (significand : Nat) (exponent : Int) : Decimal :=
  if 0 ≤ exponent then ⟨significand <<< exponent.toNat, 0⟩
  else ⟨significand * Nat.pow 5 (-exponent).toNat, exponent⟩

def stripZeros : Nat → Decimal → Decimal
  | 0, decimal => decimal
  | rounds + 1, decimal =>
    if decimal.digits % 10 = 0 then stripZeros rounds ⟨decimal.digits / 10, decimal.exponent + 1⟩ else decimal

end Shortest

open Shortest in
def shortest (significand : Nat) (exponent : Int) : Decimal :=
  if significand = 0 then ⟨0, 0⟩
  else
    let range := interval significand exponent
    let top := magnitude range
    match (List.range 17).findSome? fun (count : Nat) => onGrid? range (top - 1 - count) with
    | some decimal => stripZeros 17 decimal
    | none => exact significand exponent

end RtmpRelay.Double
