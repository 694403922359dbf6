import RtmpRelay.Bytes

/-! Bytes in hexadecimal. -/

namespace RtmpRelay.Text

def hexDigit (digit : Nat) : Char :=
  (Nat.digitChar digit)

/-- Two lower-case digits. -/
def hexByte (byte : UInt8) : String :=
  String.ofList [hexDigit (byte.toNat / 16), hexDigit (byte.toNat % 16)]

end RtmpRelay.Text
