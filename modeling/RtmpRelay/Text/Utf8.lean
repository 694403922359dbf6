import RtmpRelay.Bytes

/-!
Text as UTF-8. Reading never fails: each longest run of bytes that could still have begun a character, and
each byte that begins none, is read as one replacement character. Reading undoes writing.
-/

namespace RtmpRelay.Text.Utf8

def encode (text : String) : Bytes :=
  text.toList.flatMap String.utf8EncodeChar

/-- A character some of whose bytes have been read. The byte after the lead has a narrower range than the
others where a longer spelling, a surrogate or too large a code would be possible. -/
structure Begun where
  bits : Nat
  missing : Nat
  low : Nat
  high : Nat

structure Reading where
  text : String
  begun : Option Begun

namespace Reading

def replacement : Char := Char.ofNat 0xfffd

def await (text : String) (bits missing low high : Nat) : Reading :=
  ⟨text, some ⟨bits, missing, low, high⟩⟩

/-- Reads a byte that no character waits for. -/
def lead (text : String) (byte : Nat) : Reading :=
  if byte < 0x80 then ⟨text.push (Char.ofNat byte), none⟩
  else if byte < 0xc2 then ⟨text.push replacement, none⟩
  else if byte < 0xe0 then await text (byte - 0xc0) 1 0x80 0xbf
  else if byte < 0xf0 then
    await text (byte - 0xe0) 2 (if byte = 0xe0 then 0xa0 else 0x80) (if byte = 0xed then 0x9f else 0xbf)
  else if byte < 0xf5 then
    await text (byte - 0xf0) 3 (if byte = 0xf0 then 0x90 else 0x80) (if byte = 0xf4 then 0x8f else 0xbf)
  else ⟨text.push replacement, none⟩

def step (reading : Reading) (byte : UInt8) : Reading :=
  match reading.begun with
  | none => lead reading.text byte.toNat
  | some begun =>
    if begun.low ≤ byte.toNat ∧ byte.toNat ≤ begun.high then
      let bits := begun.bits * 64 + (byte.toNat - 0x80)
      if begun.missing = 1 then ⟨reading.text.push (Char.ofNat bits), none⟩
      else await reading.text bits (begun.missing - 1) 0x80 0xbf
    else lead (reading.text.push replacement) byte.toNat

def finish (reading : Reading) : String :=
  match reading.begun with
  | none => reading.text
  | some _ => reading.text.push replacement

private theorem step_last {text : String} {bits low high byte : Nat} (small : byte < 256)
    (inside : low ≤ byte ∧ byte ≤ high) :
    step (await text bits 1 low high) (UInt8.ofNat byte) =
      ⟨text.push (Char.ofNat (bits * 64 + (byte - 0x80))), none⟩ := by
  simp [step, await, Nat.mod_eq_of_lt small, inside]

private theorem step_middle {text : String} {bits missing low high byte : Nat} (small : byte < 256)
    (inside : low ≤ byte ∧ byte ≤ high) (several : missing ≠ 1) :
    step (await text bits missing low high) (UInt8.ofNat byte) =
      await text (bits * 64 + (byte - 0x80)) (missing - 1) 0x80 0xbf := by
  simp [step, await, Nat.mod_eq_of_lt small, inside, several]

private theorem step_lead {text : String} {byte : Nat} (small : byte < 256) :
    step ⟨text, none⟩ (UInt8.ofNat byte) = lead text byte := by
  simp [step, Nat.mod_eq_of_lt small]

/-- The bytes of one character are read as that character. -/
private theorem foldl_step_char (text : String) (char : Char) :
    (String.utf8EncodeChar char).foldl step ⟨text, none⟩ = ⟨text.push char, none⟩ := by
  have back : Char.ofNat char.val.toNat = char := char.ofNat_toNat
  have valid : char.val.toNat < 0xd800 ∨ 0xdfff < char.val.toNat ∧ char.val.toNat < 0x110000 := char.valid
  unfold String.utf8EncodeChar
  generalize char.val.toNat = code at back valid
  subst back
  simp only
  split
  · next ascii =>
    rw [List.foldl_cons, List.foldl_nil, step_lead (by omega), lead, if_pos (by omega)]
  · split
    · rw [List.foldl_cons, List.foldl_cons, List.foldl_nil, step_lead (by omega), lead, if_neg (by omega),
        if_neg (by omega), if_pos (by omega), step_last (by omega) (by omega),
        show (code / 64 % 32 + 192 - 0xc0) * 64 + (code % 64 + 128 - 0x80) = code by omega]
    · split
      · rw [List.foldl_cons, List.foldl_cons, List.foldl_cons, List.foldl_nil, step_lead (by omega), lead,
          if_neg (by omega), if_neg (by omega), if_neg (by omega), if_pos (by omega),
          step_middle (by omega) (by split <;> split <;> omega) (by omega), step_last (by omega) (by omega),
          show ((code / 4096 % 16 + 224 - 0xe0) * 64 + (code / 64 % 64 + 128 - 0x80)) * 64 +
            (code % 64 + 128 - 0x80) = code by omega]
      · rw [List.foldl_cons, List.foldl_cons, List.foldl_cons, List.foldl_cons, List.foldl_nil,
          step_lead (by omega), lead, if_neg (by omega), if_neg (by omega), if_neg (by omega), if_neg (by omega),
          if_pos (by omega), step_middle (by omega) (by split <;> split <;> omega) (by omega),
          step_middle (by omega) (by omega) (by omega), step_last (by omega) (by omega),
          show (((code / 262144 % 8 + 240 - 0xf0) * 64 + (code / 4096 % 64 + 128 - 0x80)) * 64 +
            (code / 64 % 64 + 128 - 0x80)) * 64 + (code % 64 + 128 - 0x80) = code by omega]

private theorem foldl_step_chars (text : String) (chars : List Char) :
    (chars.flatMap String.utf8EncodeChar).foldl step ⟨text, none⟩ = ⟨text ++ String.ofList chars, none⟩ := by
  induction chars generalizing text with
  | nil => simp
  | cons char rest ih =>
    rw [List.flatMap_cons, List.foldl_append, foldl_step_char, ih]
    congr 1
    apply String.toList_inj.mp
    simp

end Reading

def decode (bytes : Bytes) : String :=
  (bytes.foldl Reading.step ⟨"", none⟩).finish

theorem decode_encode (text : String) : decode (encode text) = text := by
  simp [decode, encode, Reading.foldl_step_chars, Reading.finish]

end RtmpRelay.Text.Utf8
