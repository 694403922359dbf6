import RtmpRelay.Error

/-!
The one to three bytes that start a chunk: how much of a message header follows, and the chunk stream. Low
ids fit the first byte; of the larger ones 64 is taken off, and the second form is the shorter one.
-/

namespace RtmpRelay.Chunk

/-- A reading that answers nothing, and takes nothing, as long as bytes are missing. -/
abbrev Reader := StateT Bytes Option

namespace Reader

def take (count : Nat) : Reader Bytes := fun unread =>
  unread.split? count

def be (width : Nat) : Reader Nat :=
  return Bytes.beValue (← take width)

def le (width : Nat) : Reader Nat :=
  return Bytes.leValue (← take width)

def byte : Reader UInt8
  | [] => none
  | first :: rest => some (first, rest)

end Reader

/-- A full header opens any message. The others leave out what is as it was in the chunk stream's last
message: its stream, then also length and type, then also the time. -/
inductive Format where
  | full
  | sameStream
  | sameLength
  | bare
deriving DecidableEq

namespace Format

def code : Format → UInt8
  | .full => 0
  | .sameStream => 1
  | .sameLength => 2
  | .bare => 3

/-- The format that the lowest two bits of a code give. -/
def ofBits (code : UInt8) : Format :=
  match code.toNat % 4 with
  | 0 => .full
  | 1 => .sameStream
  | 2 => .sameLength
  | _ => .bare

def ofCode (code : UInt8) : Except Error Format :=
  if code < 4 then return ofBits code else throw (.violation (.chunkFormat code))

theorem code_lt (format : Format) : format.code.toNat < 4 := by
  cases format <;> decide

@[simp] theorem ofBits_code (format : Format) : ofBits format.code = format := by
  cases format <;> rfl

end Format

structure BasicHeader where
  format : Format
  chunkStream : UInt32
deriving DecidableEq

namespace BasicHeader

/-- The header at the front of the input and how many bytes it takes. -/
def read : Reader (BasicHeader × Nat) := do
  let first ← Reader.byte
  let format := Format.ofBits (UInt8.ofNat (first.toNat / 64))
  let low := first.toNat % 64
  if low = 0 then return (⟨format, UInt32.ofNat ((← Reader.byte).toNat + 64)⟩, 2)
  else if low = 1 then return (⟨format, UInt32.ofNat ((← Reader.le 2) + 64)⟩, 3)
  else return (⟨format, UInt32.ofNat low⟩, 1)

/-- The shortest form that can hold the chunk stream. -/
def toBytes (header : BasicHeader) : Except Error Bytes :=
  let id := header.chunkStream.toNat
  let high := header.format.code.toNat * 64
  if id < 2 then throw (.violation (.chunkStream header.chunkStream))
  else if id < 64 then return [UInt8.ofNat (high + id)]
  else if id < 320 then return [UInt8.ofNat high, UInt8.ofNat (id - 64)]
  else if id < 65600 then return UInt8.ofNat (high + 1) :: Bytes.le 2 (id - 64)
  else throw (.violation (.chunkStream header.chunkStream))

private theorem read_cons (format : Format) (low : Nat) (small : low < 64) (rest : Bytes) :
    read (UInt8.ofNat (format.code.toNat * 64 + low) :: rest) =
      (if low = 0 then return (⟨format, UInt32.ofNat ((← Reader.byte).toNat + 64)⟩, 2)
        else if low = 1 then return (⟨format, UInt32.ofNat ((← Reader.le 2) + 64)⟩, 3)
        else return (⟨format, UInt32.ofNat low⟩, 1) : Reader (BasicHeader × Nat)) rest := by
  have few := format.code_lt
  have value : (UInt8.ofNat (format.code.toNat * 64 + low)).toNat = format.code.toNat * 64 + low := by
    simp only [UInt8.toNat_ofNat']
    omega
  have high : (format.code.toNat * 64 + low) / 64 = format.code.toNat := by omega
  have remainder : (format.code.toNat * 64 + low) % 64 = low := by omega
  have same : Format.ofBits (UInt8.ofNat format.code.toNat) = format := by simp
  simp only [read, Reader.byte, bind, StateT.bind, Option.bind, value, high, remainder, same]

/-- Reading a written header gives it back and leaves what follows. -/
theorem read_toBytes {header : BasicHeader} {bytes : Bytes} (written : header.toBytes = .ok bytes) (rest : Bytes) :
    read (bytes ++ rest) = some ((header, bytes.length), rest) := by
  obtain ⟨format, id⟩ := header
  have same : UInt32.ofNat id.toNat = id := by simp
  simp only [toBytes, throw, throwThe, MonadExceptOf.throw, pure, Except.pure] at written
  split at written
  · simp at written
  · split at written
    · simp only [Except.ok.injEq] at written
      subst written
      rw [List.singleton_append, read_cons format id.toNat (by omega), if_neg (by omega), if_neg (by omega), same]
      rfl
    · split at written
      · simp only [Except.ok.injEq] at written
        subst written
        have value : (UInt8.ofNat (id.toNat - 64)).toNat + 64 = id.toNat := by
          simp only [UInt8.toNat_ofNat']
          omega
        have opened := read_cons format 0 (by omega) (UInt8.ofNat (id.toNat - 64) :: rest)
        rw [Nat.add_zero] at opened
        rw [List.cons_append, List.singleton_append, opened, if_pos rfl]
        simp only [Reader.byte, bind, StateT.bind, Option.bind, value, same]
        rfl
      · split at written
        · simp only [Except.ok.injEq] at written
          subst written
          have value : Bytes.leValue (Bytes.le 2 (id.toNat - 64)) + 64 = id.toNat := by
            simp only [Bytes.le, Bytes.leValue, UInt8.toNat_ofNat']
            omega
          have cut := Bytes.split?_append (Bytes.le 2 (id.toNat - 64)) rest
          rw [Bytes.length_le] at cut
          rw [List.cons_append, read_cons format 1 (by omega), if_neg (by omega), if_pos rfl]
          simp only [Reader.le, Reader.take, bind, StateT.bind, Option.bind, pure, cut]
          change some ((BasicHeader.mk format (UInt32.ofNat (Bytes.leValue (Bytes.le 2 (id.toNat - 64)) + 64)), 3), rest) = _
          rw [value, same]
          simp
        · simp at written

end BasicHeader
end RtmpRelay.Chunk
