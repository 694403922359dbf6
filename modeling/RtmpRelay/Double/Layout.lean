import RtmpRelay.Double.Shortest

/-! Decimal text of a double: its fewest digits, laid out as a style decides. -/

namespace RtmpRelay.Double

/-- A style says for which leading powers of ten the digits are written around the point, and whether a
whole number then still shows one decimal. Other numbers have one digit before the point and an exponent. -/
structure Layout where
  positional : Int → Bool
  wholePoint : Bool

namespace Layout

def zeros (count : Int) : String :=
  "".pushn '0' count.toNat

def withPoint (style : Layout) (digits : List Char) (point : Int) : String :=
  if point ≤ 0 then "0." ++ zeros (-point) ++ String.ofList digits
  else if digits.length ≤ point then
    String.ofList digits ++ zeros (point - digits.length) ++ (if style.wholePoint then ".0" else "")
  else String.ofList (digits.take point.toNat) ++ "." ++ String.ofList (digits.drop point.toNat)

def withExponent (digits : List Char) (power : Int) : String :=
  let rest := digits.drop 1
  String.ofList (digits.take 1) ++ (if rest.isEmpty then "" else "." ++ String.ofList rest) ++ "e" ++ toString power

def decimal (style : Layout) (number : Decimal) : String :=
  let digits := Nat.toDigits 10 number.digits
  let point := number.exponent + digits.length
  if style.positional (point - 1) then withPoint style digits point else withExponent digits (point - 1)

end Layout

def text (style : Layout) (number : Double) : String :=
  match number.form with
  | .nan => "NaN"
  | .infinite negative => if negative then "-inf" else "inf"
  | .finite negative significand exponent =>
    (if negative then "-" else "") ++ style.decimal (shortest significand exponent)

end RtmpRelay.Double
