import RtmpRelay.Chunk.Split
import RtmpRelay.Chunk.Stream
import RtmpRelay.Proofs.FixedWidth

/-! Chunks on the wire, from both ends. Readers undo the fixed-width writers in front of any input, every
basic header that is read names one of the chunk streams that can be written, and a message is written exactly
if its chunk stream and its length fit their fields. -/

namespace RtmpRelay

namespace Chunk

namespace Reader

theorem pure_apply (value : α) (input : Bytes) : (pure value : Reader α) input = some (value, input) := rfl

theorem bind_some {reader : Reader α} {next : α → Reader β} {input rest : Bytes} {value : α}
    (read : reader input = some (value, rest)) : (reader >>= next) input = next value rest := by
  simp only [bind, StateT.bind, Option.bind, read]

theorem bind_none {reader : Reader α} {next : α → Reader β} {input : Bytes}
    (missing : reader input = none) : (reader >>= next) input = none := by
  simp only [bind, StateT.bind, Option.bind, missing]

theorem of_bind {reader : Reader α} {next : α → Reader β} {input rest : Bytes} {answer : β}
    (read : (reader >>= next) input = some (answer, rest)) :
    ∃ value middle, reader input = some (value, middle) ∧ next value middle = some (answer, rest) := by
  cases first : reader input with
  | none => rw [bind_none first] at read; cases read
  | some result =>
    obtain ⟨value, middle⟩ := result
    exact ⟨value, middle, rfl, by rwa [bind_some first] at read⟩

theorem take_append (taken rest : Bytes) : take taken.length (taken ++ rest) = some (taken, rest) :=
  Bytes.split?_append taken rest

theorem of_take {count : Nat} {input taken rest : Bytes} (read : take count input = some (taken, rest)) :
    taken.length = count ∧ input = taken ++ rest := by
  rw [take, Bytes.split?_eq] at read
  split at read
  next enough =>
    cases read
    exact ⟨by simpa using enough, (List.take_append_drop count input).symm⟩
  next => cases read

theorem be_append {width number : Nat} (small : number < 256 ^ width) (rest : Bytes) :
    be width (Bytes.be width number ++ rest) = some (number, rest) := by
  have cut := take_append (Bytes.be width number) rest
  rw [Bytes.length_be] at cut
  rw [be, bind_some cut, Bytes.beValue_be, Nat.mod_eq_of_lt small]
  rfl

theorem le_append {width number : Nat} (small : number < 256 ^ width) (rest : Bytes) :
    le width (Bytes.le width number ++ rest) = some (number, rest) := by
  have cut := take_append (Bytes.le width number) rest
  rw [Bytes.length_le] at cut
  rw [le, bind_some cut, Bytes.leValue_le, Nat.mod_eq_of_lt small]
  rfl

theorem be_word (word : UInt32) (rest : Bytes) :
    be 4 (Bytes.be 4 word.toNat ++ rest) = some (word.toNat, rest) :=
  be_append (Nat.lt_of_lt_of_eq word.toNat_lt (by decide)) rest

theorem le_word (word : UInt32) (rest : Bytes) :
    le 4 (Bytes.le 4 word.toNat ++ rest) = some (word.toNat, rest) :=
  le_append (Nat.lt_of_lt_of_eq word.toNat_lt (by decide)) rest

theorem byte_cons (first : UInt8) (rest : Bytes) : byte (first :: rest) = some (first, rest) := rfl

theorem of_be {width number : Nat} {input rest : Bytes} (read : be width input = some (number, rest)) :
    number < 256 ^ width ∧ input = Bytes.be width number ++ rest := by
  obtain ⟨taken, middle, cut, answer⟩ := of_bind read
  obtain ⟨rfl, rfl⟩ := of_take cut
  cases answer
  exact ⟨Bytes.beValue_lt taken, by rw [Bytes.be_beValue]⟩

theorem of_le {width number : Nat} {input rest : Bytes} (read : le width input = some (number, rest)) :
    number < 256 ^ width ∧ input = Bytes.le width number ++ rest := by
  obtain ⟨taken, middle, cut, answer⟩ := of_bind read
  obtain ⟨rfl, rfl⟩ := of_take cut
  cases answer
  exact ⟨Bytes.leValue_lt taken, by rw [Bytes.le_leValue]⟩

theorem of_byte {first : UInt8} {input rest : Bytes} (read : byte input = some (first, rest)) :
    input = first :: rest := by
  cases input with
  | nil => cases read
  | cons head tail => cases read; rfl

end Reader

namespace BasicHeader

/-- The ids that a basic header can hold. -/
def Encodable (id : UInt32) : Prop :=
  2 ≤ id.toNat ∧ id.toNat ≤ 65599

theorem toBytes_ok {id : UInt32} (encodable : Encodable id) (format : Format) :
    ∃ bytes, toBytes ⟨format, id⟩ = .ok bytes ∧ bytes ≠ [] := by
  obtain ⟨low, high⟩ := encodable
  simp only [toBytes, if_neg (show ¬ id.toNat < 2 by omega), if_pos (show id.toNat < 65600 by omega)]
  split
  · exact ⟨_, rfl, List.cons_ne_nil _ _⟩
  · split <;> exact ⟨_, rfl, List.cons_ne_nil _ _⟩

/-- Whatever the peer sends, a header that is read names an encodable chunk stream, and its bytes are counted. -/
theorem of_read {header : BasicHeader} {size : Nat} {input rest : Bytes}
    (read : BasicHeader.read input = some ((header, size), rest)) :
    Encodable header.chunkStream ∧ 0 < size ∧ input.length = size + rest.length := by
  obtain ⟨first, middle, front, answer⟩ := Reader.of_bind read
  obtain rfl := Reader.of_byte front
  dsimp only at answer
  split at answer
  · obtain ⟨next, after, second, last⟩ := Reader.of_bind answer
    obtain rfl := Reader.of_byte second
    cases last
    have small : next.toNat < 256 := next.toNat_lt
    simp only [Encodable, UInt32.toNat_ofNat', List.length_cons]
    omega
  · split at answer
    · obtain ⟨number, after, second, last⟩ := Reader.of_bind answer
      obtain ⟨small, rfl⟩ := Reader.of_le second
      cases last
      simp only [Encodable, UInt32.toNat_ofNat', List.length_cons, List.length_append, Bytes.length_le]
      omega
    · cases answer
      simp only [Encodable, UInt32.toNat_ofNat', List.length_cons]
      omega

end BasicHeader
end Chunk

namespace Message
open Chunk

/-- The limits of the fields that announce a message. -/
structure Fits (message : Message) : Prop where
  chunkStream : BasicHeader.Encodable message.chunkStream
  length : message.payload.length ≤ maxMessageLength

theorem control_fits (type : MessageType) {payload : Bytes} (short : payload.length ≤ maxMessageLength) :
    (control type payload).Fits :=
  ⟨show BasicHeader.Encodable controlChunkStream from ⟨by decide, by decide⟩, short⟩

theorem toBytes_eq {message : Message} {size : UInt32} {full bare first : Bytes} {others : List Bytes}
    (short : message.payload.length ≤ maxMessageLength)
    (opening : BasicHeader.toBytes ⟨.full, message.chunkStream⟩ = .ok full)
    (continuation : BasicHeader.toBytes ⟨.bare, message.chunkStream⟩ = .ok bare)
    (pieces : Bytes.pieces (max size.toNat 1) message.payload = first :: others) :
    message.toBytes size = .ok (full ++ message.fullHeader ++ message.extendedTime ++ first ++
      (others.map (bare ++ message.extendedTime ++ ·)).flatten) := by
  simp only [toBytes, chunks, if_neg (Nat.not_lt.mpr short), opening, continuation, pieces, pure, Except.pure,
    bind, Except.bind, List.flatten_cons]

theorem toBytes_ok {message : Message} (fits : message.Fits) (size : UInt32) :
    ∃ bytes, message.toBytes size = .ok bytes := by
  obtain ⟨full, opening, _⟩ := BasicHeader.toBytes_ok fits.chunkStream .full
  obtain ⟨bare, continuation, _⟩ := BasicHeader.toBytes_ok fits.chunkStream .bare
  exact ⟨_, toBytes_eq fits.length opening continuation (Bytes.pieces_eq_cons (by omega) message.payload)⟩

end Message
end RtmpRelay
