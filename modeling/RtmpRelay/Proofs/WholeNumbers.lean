import Mathlib.Data.Nat.Bitwise
import RtmpRelay.Proofs.Decoded

/-! Whole numbers of the newer encoding. Each number below two to the 29 has a shortest form, which is read back; any
other bytes give a number in that range too, or are a form cut short. Words of 32 bits are wide enough on the way, and
shifting the sign to the top and back again finds the one number of 29 bits that is meant. -/

namespace RtmpRelay

namespace Double

/-- The double is this number: the significand has its bits moved up, and the exponent moves them back. -/
def Equals (double : Double) (number : Int) : Prop :=
  ∃ shift : Nat, double.form = .finite (number < 0) (number.natAbs * 2 ^ shift) (-shift)

/-- A significand that has its leading bit carries it into the exponent. -/
theorem form_ofFields (negative : Bool) {exponent significand : Nat} (finite : exponent < 2046)
    (normal : leadingBit ≤ significand) (below : significand < 2 * leadingBit) :
    (ofFields negative exponent significand).form = .finite negative significand (exponent - 1074) := by
  have bits : (ofFields negative exponent significand).bits.toNat =
      (if negative then 2048 else 0) * leadingBit + exponent * leadingBit + significand := by
    unfold leadingBit at below ⊢
    cases negative
    all_goals
      simp only [ofFields, leadingBit, UInt64.toNat_ofNat', Bool.false_eq_true, if_true, if_false]
      omega
  have field : (ofFields negative exponent significand).exponentField = exponent + 1 := by
    rw [exponentField, bits]
    unfold leadingBit at normal below ⊢
    cases negative <;> simp only [Bool.false_eq_true, if_true, if_false] <;> omega
  have low : leadingBit + (ofFields negative exponent significand).fraction = significand := by
    rw [fraction, bits]
    unfold leadingBit at normal below ⊢
    cases negative <;> simp only [Bool.false_eq_true, if_true, if_false] <;> omega
  have sign : (ofFields negative exponent significand).isNegative = negative := by
    rw [isNegative, bits, Nat.shiftRight_eq_div_pow]
    unfold leadingBit at normal below ⊢
    cases negative
    all_goals
      simp only [Bool.false_eq_true, if_true, if_false, decide_eq_true_eq, decide_eq_false_iff_not]
      omega
  rw [form, field, low, sign, if_neg (by omega), if_neg (by omega)]
  congr 1
  omega

/-- Up to 53 bits nothing is rounded. -/
theorem ofInt_equals {number : Int} (small : number.natAbs < 2 ^ 53) : (ofInt number).Equals number := by
  by_cases zero : number.natAbs = 0
  · rw [Int.natAbs_eq_zero] at zero
    subst zero
    refine ⟨1074, ?_⟩
    rw [Int.natAbs_zero, Nat.zero_mul]
    rfl
  obtain ⟨shift, moved⟩ := Nat.exists_eq_add_of_le ((Nat.log2_lt zero).mpr small)
  have narrow : number.natAbs.log2 + 1 ≤ 53 := by omega
  have lower : leadingBit ≤ number.natAbs * 2 ^ shift := by
    calc leadingBit = 2 ^ number.natAbs.log2 * 2 ^ shift := by
          rw [← Nat.pow_add, show number.natAbs.log2 + shift = 52 by omega, leadingBit]
      _ ≤ number.natAbs * 2 ^ shift := Nat.mul_le_mul_right _ (Nat.log2_self_le zero)
  have upper : number.natAbs * 2 ^ shift < 2 * leadingBit := by
    calc number.natAbs * 2 ^ shift < 2 ^ (number.natAbs.log2 + 1) * 2 ^ shift :=
          Nat.mul_lt_mul_of_pos_right Nat.lt_log2_self (Nat.two_pow_pos shift)
      _ = 2 * leadingBit := by rw [← Nat.pow_add, show number.natAbs.log2 + 1 + shift = 53 by omega, leadingBit]
  have exponent : ((number.natAbs.log2 + 1 + 1021 : Nat) : Int) - 1074 = -(shift : Int) := by omega
  refine ⟨shift, ?_⟩
  rw [ofInt, ofMagnitude, if_neg zero]
  dsimp only
  rw [if_pos narrow, Nat.shiftLeft_eq, show 53 - (number.natAbs.log2 + 1) = shift by omega,
    form_ofFields _ (by omega) lower upper, exponent]

end Double

namespace Amf.Amf3

/-- Seven bits that others follow. -/
def continued (group : Nat) : UInt8 :=
  UInt8.ofNat (0x80 + group % 0x80)

/-- One, two or three groups of seven bits, or three of them and a whole byte. -/
def shortestForm (number : Nat) : Bytes :=
  if number < 0x80 then [UInt8.ofNat number]
  else if number < 0x4000 then [continued (number / 0x80), UInt8.ofNat (number % 0x80)]
  else if number < 0x200000 then
    [continued (number / 0x4000), continued (number / 0x80), UInt8.ofNat (number % 0x80)]
  else
    [continued (number / 0x400000), continued (number / 0x8000), continued (number / 0x100), UInt8.ofNat (number % 0x100)]

section Groups
variable {more high : Nat}

theorem groups_step (byte : UInt8) (rest : Bytes) : groups Reader.byte (more + 1) high (byte :: rest) =
    (if byte.toNat < 0x80 then pure (high * 0x80 + byte.toNat % 0x80)
      else groups Reader.byte more (high * 0x80 + byte.toNat % 0x80)) rest :=
  rfl

theorem groups_continued (group : Nat) (rest : Bytes) :
    groups Reader.byte (more + 1) high (continued group :: rest) =
      groups Reader.byte more (high * 0x80 + group % 0x80) rest := by
  have byte : (continued group).toNat = 0x80 + group % 0x80 := by
    rw [continued, UInt8.toNat_ofNat']
    omega
  have value : (0x80 + group % 0x80) % 0x80 = group % 0x80 := by omega
  rw [groups_step, byte, if_neg (by omega), value]

theorem groups_last {group : Nat} (small : group < 0x80) (rest : Bytes) :
    groups Reader.byte (more + 1) high (UInt8.ofNat group :: rest) = .ok (high * 0x80 + group) rest := by
  have byte : (UInt8.ofNat group).toNat = group := by
    rw [UInt8.toNat_ofNat']
    omega
  rw [groups_step, byte, if_pos small, Nat.mod_eq_of_lt small]
  rfl

theorem groups_whole {byte : Nat} (small : byte < 0x100) (rest : Bytes) :
    groups Reader.byte 0 high (UInt8.ofNat byte :: rest) = .ok (high * 0x100 + byte) rest := by
  have same : (UInt8.ofNat byte).toNat = byte := by
    rw [UInt8.toNat_ofNat']
    omega
  have read : groups Reader.byte 0 high (UInt8.ofNat byte :: rest) = .ok (high * 0x100 + (UInt8.ofNat byte).toNat) rest := rfl
  rw [read, same]

theorem u29_shortestForm {number : Nat} (small : number < 0x20000000) (rest : Bytes) :
    u29 Reader.byte (shortestForm number ++ rest) = .ok number rest := by
  unfold u29 shortestForm
  split
  next one =>
    rw [List.cons_append, groups_last one]
    congr 1
    omega
  split
  next two =>
    rw [List.cons_append, groups_continued, List.cons_append, groups_last (by omega)]
    congr 1
    omega
  split
  next three =>
    rw [List.cons_append, groups_continued, List.cons_append, groups_continued, List.cons_append,
      groups_last (by omega)]
    congr 1
    omega
  next =>
    rw [List.cons_append, groups_continued, List.cons_append, groups_continued, List.cons_append, groups_continued,
      List.cons_append, groups_whole (by omega)]
    congr 1
    omega

theorem length_shortestForm_le {number size : Nat} (some : 1 ≤ size) (small : size < 4 → number < 0x80 ^ size) :
    (shortestForm number).length ≤ size := by
  have length : (shortestForm number).length =
      if number < 0x80 then 1 else if number < 0x4000 then 2 else if number < 0x200000 then 3 else 4 := by
    unfold shortestForm
    repeat' split
    all_goals rfl
  rw [length]
  obtain one | two | three | four : size = 1 ∨ size = 2 ∨ size = 3 ∨ 4 ≤ size := by omega
  · subst one
    have below : number < 0x80 := small (by decide)
    split <;> omega
  · subst two
    have below : number < 0x4000 := small (by decide)
    repeat' split
    all_goals omega
  · subst three
    have below : number < 0x200000 := small (by decide)
    repeat' split
    all_goals omega
  · repeat' split
    all_goals omega

/-- Only a form that is cut short is refused. -/
theorem groups_error {unread left : Bytes} {error : Error}
    (refused : groups Reader.byte more high unread = .error error left) :
    error = .unexpectedEnd ∧ left = [] ∧ unread.length ≤ more ∧ ∀ byte ∈ unread, 0x80 ≤ byte.toNat := by
  induction more generalizing high unread with
  | zero =>
    cases unread with
    | nil =>
      cases refused
      exact ⟨rfl, rfl, Nat.le_refl 0, nofun⟩
    | cons byte unread => cases refused
  | succ more ih =>
    cases unread with
    | nil =>
      cases refused
      exact ⟨rfl, rfl, Nat.zero_le _, nofun⟩
    | cons byte unread =>
      rw [groups_step] at refused
      split at refused
      next => cases refused
      next large =>
        obtain ⟨ended, nothing, short, others⟩ := ih refused
        exact ⟨ended, nothing, Nat.succ_le_succ short, List.forall_mem_cons.mpr ⟨Nat.le_of_not_lt large, others⟩⟩

/-- Groups of seven bits hold no more than that. -/
theorem groups_taken (more high : Nat) (unread : Bytes) :
    Ensures (groups Reader.byte more high) unread fun number rest => ∃ taken, unread = taken ++ rest ∧ 1 ≤ taken.length ∧
      taken.length ≤ more + 1 ∧ (taken.length ≤ more → number < (high + 1) * 0x80 ^ taken.length) := by
  induction more generalizing high unread with
  | zero =>
    refine .bind ((Reader.byte_cons unread).imp fun byte rest front => .pure ?_)
    exact ⟨[byte], front, Nat.le_refl 1, Nat.le_refl 1, fun never => absurd never (Nat.not_succ_le_zero 0)⟩
  | succ more ih =>
    refine .bind ((Reader.byte_cons unread).imp fun byte rest front => ?_)
    dsimp only
    split
    next small =>
      refine .pure ⟨[byte], front, Nat.le_refl 1, Nat.le_add_left 1 _, fun _ => ?_⟩
      rw [List.length_singleton]
      omega
    next =>
      intro number last read
      obtain ⟨taken, same, some, few, bound⟩ := ih _ rest number last read
      refine ⟨byte :: taken, by rw [front, same, List.cons_append], Nat.le_add_left 1 _, Nat.succ_le_succ few, ?_⟩
      intro fewer
      have below := bound (Nat.le_of_succ_le_succ fewer)
      calc number < (high * 0x80 + byte.toNat % 0x80 + 1) * 0x80 ^ taken.length := below
        _ ≤ (high + 1) * 0x80 * 0x80 ^ taken.length := Nat.mul_le_mul_right _ (by omega)
        _ = (high + 1) * 0x80 ^ (byte :: taken).length := by rw [List.length_cons, Nat.pow_succ', Nat.mul_assoc]

end Groups

def wordGroups : Nat → UInt32 → Amf.Reader UInt32
  | 0, high => return high <<< 8 ||| (← Reader.byte).toUInt32
  | more + 1, high => do
    let byte ← Reader.byte
    let value := high <<< 7 ||| (byte &&& 0x7f).toUInt32
    if byte &&& 0x80 = 0 then return value else wordGroups more value

def wordU29 : Amf.Reader UInt32 :=
  wordGroups 3 0

/-- The bit at the top of 29 is moved to the top of the word and back, so that it is the sign. -/
def wordSigned (raw : UInt32) : Int32 :=
  (raw <<< 3).toInt32 >>> 3

theorem toNat_shifted_or (shift : Nat) {high low : UInt32} (narrow : shift < 32) (small : low.toNat < 2 ^ shift)
    (fits : high.toNat * 2 ^ shift < 2 ^ 32) :
    (high <<< UInt32.ofNat shift ||| low).toNat = high.toNat * 2 ^ shift + low.toNat := by
  have amount : (UInt32.ofNat shift).toNat % 32 = shift := by
    rw [UInt32.toNat_ofNat']
    omega
  rw [UInt32.toNat_or, UInt32.toNat_shiftLeft, amount, Nat.shiftLeft_eq, Nat.mod_eq_of_lt fits, Nat.mul_comm,
    ← Nat.two_pow_add_eq_or_of_lt small]

theorem masked_iff {byte : UInt8} : byte &&& 0x80 = 0 ↔ byte.toNat < 0x80 := by
  have bound := byte.toNat_lt
  have masked : byte.toNat &&& 0x80 = (byte.toNat.testBit 7).toNat * 0x80 := Nat.and_two_pow byte.toNat 7
  rw [← UInt8.toNat_inj, UInt8.toNat_and]
  change byte.toNat &&& 0x80 = 0 ↔ byte.toNat < 0x80
  rw [masked, Nat.testBit_eq_decide_div_mod_eq]
  by_cases top : byte.toNat / 2 ^ 7 % 2 = 1
  · rw [decide_eq_true top, Bool.toNat_true]
    omega
  · rw [decide_eq_false top, Bool.toNat_false]
    omega

theorem wordGroups_eq (more : Nat) (high : UInt32) (fits : (high.toNat + 1) * (0x80 ^ more * 0x100) ≤ 2 ^ 32) :
    (do return (← wordGroups more high).toNat) = groups Reader.byte more high.toNat := by
  induction more generalizing high with
  | zero =>
    funext unread
    cases unread with
    | nil => rfl
    | cons byte unread =>
      have value : (high <<< 8 ||| byte.toUInt32).toNat = high.toNat * 0x100 + byte.toNat :=
        toNat_shifted_or 8 (by decide) byte.toNat_lt (by omega)
      exact congrArg (EStateM.Result.ok · unread) value
  | succ more ih =>
    funext unread
    cases unread with
    | nil => rfl
    | cons byte unread =>
      have low : (byte &&& 0x7f).toUInt32.toNat = byte.toNat % 0x80 := by
        rw [UInt8.toNat_toUInt32, UInt8.toNat_and]
        exact Nat.and_two_pow_sub_one_eq_mod byte.toNat 7
      have small := Nat.mod_lt byte.toNat (show 0 < 0x80 by decide)
      have grown := (group_within more high.toNat byte.toNat).trans fits
      have factor : 1 ≤ 0x80 ^ more * 0x100 := Nat.mul_pos (Nat.pow_pos (by decide)) (by decide)
      have narrow : high.toNat * 2 ^ 7 < 2 ^ 32 := by
        have bound := (Nat.le_mul_of_pos_right _ factor).trans grown
        omega
      have value : (high <<< 7 ||| (byte &&& 0x7f).toUInt32).toNat = high.toNat * 0x80 + byte.toNat % 0x80 := by
        rw [← low]
        exact toNat_shifted_or 7 (by decide) (low ▸ small) narrow
      have same := ih (high <<< 7 ||| (byte &&& 0x7f).toUInt32) (value ▸ grown)
      rw [value] at same
      have worded : wordGroups (more + 1) high (byte :: unread) =
          (if byte &&& 0x80 = 0 then pure (high <<< 7 ||| (byte &&& 0x7f).toUInt32)
            else wordGroups more (high <<< 7 ||| (byte &&& 0x7f).toUInt32)) unread := rfl
      rw [groups_step]
      by_cases last : byte.toNat < 0x80
      · rw [if_pos last]
        rw [if_pos (masked_iff.mpr last)] at worded
        rw [run_bind_ok worded, value]
      · rw [if_neg last, ← same]
        rw [if_neg (mt masked_iff.mp last)] at worded
        change EStateM.bind _ _ _ = EStateM.bind _ _ _
        rw [EStateM.bind, EStateM.bind, worded]

theorem wordSigned_eq {raw : UInt32} (small : raw.toNat < 0x20000000) : (wordSigned raw).toInt = signed raw.toNat := by
  have moved : (raw <<< 3).toInt32.toBitVec.toNat = raw.toNat * 8 := by
    rw [UInt32.toBitVec_toInt32, UInt32.toNat_toBitVec, UInt32.toNat_shiftLeft, Nat.shiftLeft_eq]
    exact Nat.mod_eq_of_lt (show raw.toNat * 8 < 2 ^ 32 by omega)
  have same : (wordSigned raw).toInt = (raw <<< 3).toInt32.toBitVec.toInt / 8 := by
    rw [wordSigned, Int32.toInt, Int32.toBitVec_shiftRight, BitVec.toInt_sshiftRight', Int.shiftRight_eq_div_pow]
    rfl
  rw [same, BitVec.toInt_eq_toNat_cond, moved, signed]
  split <;> split <;> omega

/-- The only number with a sign in 29 bits that agrees with it. -/
theorem eq_signed_iff {number : Nat} (small : number < 0x20000000) (other : Int) :
    other = signed number ↔ -0x10000000 ≤ other ∧ other < 0x10000000 ∧ 0x20000000 ∣ other - number := by
  unfold signed
  split <;> omega

theorem ofInt_signed_equals {number : Nat} (small : number < 0x20000000) :
    (Double.ofInt (signed number)).Equals (signed number) := by
  apply Double.ofInt_equals
  unfold signed
  split <;> omega

theorem value_integer (room : Nat) (state : State) (bytes : Bytes) :
    value (room + 1) { state with unread := 0x04 :: bytes } =
      match u29 Reader.byte bytes with
      | .ok number rest => .ok (.ofInt (signed number)) { state with unread := rest }
      | .error error left => .error error { state with unread := left } := by
  have marked : value (room + 1) { state with unread := 0x04 :: bytes } =
      (do return .ofInt (signed (← raw (u29 Reader.byte))) : Reader Value) { state with unread := bytes } := rfl
  rw [marked]
  cases found : u29 Reader.byte bytes with
  | ok number rest =>
    have read : raw (u29 Reader.byte) { state with unread := bytes } = .ok number { state with unread := rest } := by
      simp only [raw, found]
    rw [run_bind_ok read]
    rfl
  | error error left =>
    have read : raw (u29 Reader.byte) { state with unread := bytes } = .error error { state with unread := left } := by
      simp only [raw, found]
    rw [run_bind_error read]

/-- A number is read from its shortest form, whatever follows. Any bytes begin with a form of one to four bytes, if not
all of them belong to one that is cut short, and the number is in the range. Words of 32 bits give the same number. An
integer is the one number with a sign in 29 bits that agrees with it, and a double can be that number. -/
theorem whole_numbers_are_read :
    (∀ number < 0x20000000, ∀ rest, u29 Reader.byte (shortestForm number ++ rest) = .ok number rest) ∧
    (∀ bytes,
      u29 Reader.byte bytes = .error .unexpectedEnd [] ∧ bytes.length < 4 ∧ (∀ byte ∈ bytes, 0x80 ≤ byte.toNat) ∨
      ∃ number taken rest, u29 Reader.byte bytes = .ok number rest ∧ bytes = taken ++ rest ∧ 1 ≤ taken.length ∧
        taken.length ≤ 4 ∧ (shortestForm number).length ≤ taken.length ∧ number < 0x20000000) ∧
    (do return (← wordU29).toNat) = u29 Reader.byte ∧
    ∀ (room : Nat) (state : State) (bytes : Bytes),
      match u29 Reader.byte bytes with
      | .ok number rest => ∃ integer : Int,
        (∀ other, other = integer ↔ -0x10000000 ≤ other ∧ other < 0x10000000 ∧ 0x20000000 ∣ other - number) ∧
        (wordSigned (UInt32.ofNat number)).toInt = integer ∧ (Double.ofInt integer).Equals integer ∧
        value (room + 1) { state with unread := 0x04 :: bytes } =
          .ok (.number (Double.ofInt integer)) { state with unread := rest }
      | .error error left =>
        value (room + 1) { state with unread := 0x04 :: bytes } = .error error { state with unread := left } := by
  have inRange {number : Nat} {bytes rest : Bytes} (read : u29 Reader.byte bytes = .ok number rest) : number < 0x20000000 :=
    (groups_makes 3 0 bytes (Nat.le_refl _) number rest read).2
  refine ⟨fun number small rest => u29_shortestForm small rest, fun bytes => ?_, wordGroups_eq 3 0 (by decide), ?_⟩
  · cases found : u29 Reader.byte bytes with
    | error error left =>
      obtain ⟨rfl, rfl, short, continued⟩ := groups_error found
      exact .inl ⟨rfl, Nat.lt_succ_of_le short, continued⟩
    | ok number rest =>
      obtain ⟨taken, same, some, few, bound⟩ := groups_taken 3 0 bytes number rest found
      refine .inr ⟨number, taken, rest, rfl, same, some, few, ?_, inRange found⟩
      apply length_shortestForm_le some
      intro three
      have below := bound (Nat.le_of_lt_succ three)
      rwa [Nat.zero_add, Nat.one_mul] at below
  · intro room state bytes
    have read := value_integer room state bytes
    cases found : u29 Reader.byte bytes with
    | error error left =>
      rw [found] at read
      exact read
    | ok number rest =>
      rw [found] at read
      have small := inRange found
      have word : (UInt32.ofNat number).toNat = number := by
        rw [UInt32.toNat_ofNat']
        omega
      refine ⟨signed number, eq_signed_iff small, ?_, ofInt_signed_equals small, read⟩
      rw [wordSigned_eq (word.symm ▸ small), word]

/-- The least integer, in four bytes, and one that takes two of its bits from the whole byte. -/
theorem least_integer_is_read :
    shortestForm 0x10000000 = [0xc0, 0x80, 0x80, 0x00] ∧
    (∀ rest, u29 Reader.byte (shortestForm 0x10000000 ++ rest) = .ok 0x10000000 rest) ∧
    ∃ integer : Int, integer = -0x10000000 ∧
      value 1 (.ofBytes [0x04, 0xc0, 0x80, 0x80, 0x00]) = .ok (.number (Double.ofInt integer)) (.ofBytes []) := by
  obtain ⟨read, -, -, integers⟩ := whole_numbers_are_read
  obtain ⟨integer, only, -, -, found⟩ := integers 0 (.ofBytes []) [0xc0, 0x80, 0x80, 0x00]
  exact ⟨rfl, read 0x10000000 (by decide), integer, ((only (-0x10000000)).mpr (by decide)).symm, found⟩

end Amf.Amf3
end RtmpRelay
