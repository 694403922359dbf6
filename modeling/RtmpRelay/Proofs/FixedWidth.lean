import Mathlib.Algebra.Order.Ring.Nat
import RtmpRelay.Double.Basic

/-!
Fixed-width numbers keep their value on the wire. A number written in some bytes reads back as its residue,
every value read fits in as many bytes, and so a double and its eight bytes determine each other.
-/

namespace RtmpRelay

namespace Bytes

theorem leValue_le (width number : Nat) : leValue (le width number) = number % 256 ^ width := by
  induction width generalizing number with
  | zero => simp [le, leValue, Nat.mod_one]
  | succ width ih =>
    rw [le, leValue, ih, Nat.pow_succ, Nat.mul_comm _ 256, Nat.mod_mul]
    simp [UInt8.toNat_ofNat']

theorem beValue_be (width number : Nat) : beValue (be width number) = number % 256 ^ width := by
  simp [beValue, be, leValue_le]

theorem leValue_lt (bytes : Bytes) : leValue bytes < 256 ^ bytes.length := by
  induction bytes with
  | nil => simp [leValue]
  | cons byte rest ih =>
    have small : byte.toNat < 256 := byte.toNat_lt
    simp only [leValue, List.length_cons, Nat.pow_succ]
    omega

theorem beValue_lt (bytes : Bytes) : beValue bytes < 256 ^ bytes.length := by
  simpa [beValue] using leValue_lt bytes.reverse

end Bytes

namespace Double

theorem ofBytes_toBytes (number : Double) : ofBytes number.toBytes = number := by
  have small := number.bits.toNat_lt
  rw [ofBytes, toBytes, Bytes.beValue_be, Nat.mod_eq_of_lt (by omega), UInt64.ofNat_toNat]

theorem toBytes_ofBytes {bytes : Bytes} (wide : bytes.length = 8) : (ofBytes bytes).toBytes = bytes := by
  have small := Bytes.beValue_lt bytes
  have same := Bytes.be_beValue bytes
  rw [wide] at small same
  rw [ofBytes, toBytes, UInt64.toNat_ofNat_of_lt' (by simpa using small), same]

end Double
end RtmpRelay
