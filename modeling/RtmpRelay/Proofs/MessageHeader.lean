import RtmpRelay.Proofs.Chunks

/-! The message header of a chunk as data: the fields that its format carries. A chunk is read exactly if its
bytes are those of such a header and a piece of payload, and the chunk stream after it is the one that the
header opens, filled by the piece. -/

namespace RtmpRelay

namespace Chunk

/-- A time field: three bytes, or three bytes of ones and four more after the rest of the header. -/
inductive Time where
  | short (value : Fin shortTimestampEnd)
  | long (value : UInt32)

namespace Time

def value : Time → UInt32
  | short value => UInt32.ofNat value
  | long value => value

def isExtended : Time → Bool
  | short _ => false
  | long _ => true

def field : Time → Nat
  | short value => value
  | long _ => shortTimestampEnd

def tail : Time → Bytes
  | short _ => []
  | long value => Bytes.be 4 value.toNat

theorem field_lt (time : Time) : time.field < 256 ^ 3 := by
  cases time with
  | short value =>
    have small := value.isLt
    simp only [field, shortTimestampEnd] at small ⊢
    omega
  | long value => exact Nat.lt_of_lt_of_le (Nat.lt_succ_self shortTimestampEnd) (by decide)

end Time

/-- A message header. The word of a bare one is there exactly if the chunk stream's time is extended. -/
inductive Header where
  | full (time : Time) (length : Fin (maxMessageLength + 1)) (typeId : UInt8) (streamId : UInt32)
  | sameStream (time : Time) (length : Fin (maxMessageLength + 1)) (typeId : UInt8)
  | sameLength (time : Time)
  | bare (word : Option UInt32)

namespace Header

def format : Header → Format
  | full .. => .full
  | sameStream .. => .sameStream
  | sameLength .. => .sameLength
  | bare .. => .bare

def toBytes : Header → Bytes
  | full time length typeId streamId =>
    Bytes.be 3 time.field ++ (Bytes.be 3 length ++ typeId :: (Bytes.le 4 streamId.toNat ++ time.tail))
  | sameStream time length typeId => Bytes.be 3 time.field ++ (Bytes.be 3 length ++ typeId :: time.tail)
  | sameLength time => Bytes.be 3 time.field ++ time.tail
  | bare none => []
  | bare (some word) => Bytes.be 4 word.toNat

def Fits (isExtended : Bool) : Header → Prop
  | bare word => word.isSome = isExtended
  | _ => True

end Header
end Chunk

namespace ChunkStream
open Chunk (Format Reader Header Time)

/-- The chunk stream once a header has been taken over. -/
def opened (stream : ChunkStream) : Header → ChunkStream
  | .full time length typeId streamId => begin { stream with
      clock := time.value, length := length, typeId, streamId
      lastFormat := .full, isExtended := time.isExtended, delta := 0 }
  | .sameStream time length typeId => begin { stream with
      clock := stream.clock + time.value, length := length, typeId
      lastFormat := .sameStream, isExtended := time.isExtended, delta := time.value }
  | .sameLength time => begin { stream with
      clock := stream.clock + time.value
      lastFormat := .sameLength, isExtended := time.isExtended, delta := time.value }
  | .bare word =>
    if stream.isComplete then
      let clock :=
        match stream.lastFormat with
        | .full => word.getD stream.clock
        | _ => stream.clock + word.getD stream.delta
      begin { stream with clock }
    else stream

/-- The chunk stream once a piece of payload has arrived. -/
def filled (stream : ChunkStream) (piece : Bytes) : ChunkStream :=
  { stream with
    received := stream.received + piece.length
    reversed := piece.reverse ++ stream.reversed }

private theorem readTime_tail (time : Time) (rest : Bytes) :
    readTime time.field (time.tail ++ rest) = some ((time.value, time.isExtended, time.tail.length), rest) := by
  cases time with
  | short value =>
    have small := value.isLt
    rw [readTime, Time.field, if_neg (by omega)]
    rfl
  | long value =>
    rw [readTime, Time.field, if_pos rfl, Time.tail,
      Reader.bind_some (Reader.be_word value rest), UInt32.ofNat_toNat, Bytes.length_be]
    rfl

private theorem of_readTime {short : Nat} {result : UInt32 × Bool × Nat} {input rest : Bytes}
    (small : short < 256 ^ 3) (read : readTime short input = some (result, rest)) :
    ∃ time : Time, time.field = short ∧ input = time.tail ++ rest := by
  unfold readTime at read
  split at read
  next ones =>
    obtain ⟨number, middle, front, last⟩ := Reader.of_bind read
    obtain ⟨bounded, rfl⟩ := Reader.of_be front
    cases last
    refine ⟨.long (UInt32.ofNat number), ones.symm, ?_⟩
    rw [Time.tail, UInt32.toNat_ofNat_of_lt' bounded]
  next fewer =>
    cases read
    have below : short < shortTimestampEnd := by
      simp only [shortTimestampEnd] at fewer ⊢
      omega
    exact ⟨.short ⟨short, below⟩, rfl, rfl⟩

/-- A header that fits is taken over as a whole, whatever follows it. -/
theorem readHeader_toBytes {stream : ChunkStream} {header : Header} (fits : header.Fits stream.isExtended)
    (rest : Bytes) :
    stream.readHeader header.format (header.toBytes ++ rest) =
      some ((stream.opened header, header.toBytes.length), rest) := by
  cases header with
  | full time length typeId streamId =>
    simp only [Header.format, Header.toBytes, List.append_assoc, List.cons_append, readHeader]
    rw [Reader.bind_some (Reader.be_append time.field_lt _), Reader.bind_some (Reader.be_append length.isLt _),
      Reader.bind_some (Reader.byte_cons _ _), Reader.bind_some (Reader.le_word streamId _),
      Reader.bind_some (readTime_tail time rest)]
    simp [opened, Reader.pure_apply]
    omega
  | sameStream time length typeId =>
    simp only [Header.format, Header.toBytes, List.append_assoc, List.cons_append, readHeader]
    rw [Reader.bind_some (Reader.be_append time.field_lt _), Reader.bind_some (Reader.be_append length.isLt _),
      Reader.bind_some (Reader.byte_cons _ _), Reader.bind_some (readTime_tail time rest)]
    simp [opened, Reader.pure_apply]
    omega
  | sameLength time =>
    simp only [Header.format, Header.toBytes, List.append_assoc, readHeader]
    rw [Reader.bind_some (Reader.be_append time.field_lt _), Reader.bind_some (readTime_tail time rest)]
    simp [opened, Reader.pure_apply]
  | bare word =>
    cases word with
    | none =>
      have plain : ¬ stream.isExtended = true := by simp [← show false = stream.isExtended from fits]
      simp only [Header.format, Header.toBytes, readHeader, if_neg plain]
      cases complete : stream.isComplete <;> simp only [opened, complete] <;> rfl
    | some word =>
      have extended : stream.isExtended = true := (show true = stream.isExtended from fits).symm
      simp only [Header.format, Header.toBytes, readHeader, if_pos extended]
      rw [Reader.bind_some (Reader.be_word word rest)]
      simp only [UInt32.ofNat_toNat, Bytes.length_be]
      cases complete : stream.isComplete <;> simp only [opened, complete] <;> rfl

private theorem header_of_readHeader {stream : ChunkStream} {format : Format} {result : ChunkStream × Nat}
    {input rest : Bytes} (read : stream.readHeader format input = some (result, rest)) :
    ∃ (header : Header) (more : Bytes), header.format = format ∧ header.Fits stream.isExtended ∧
      input = header.toBytes ++ more := by
  cases format with
  | full =>
    obtain ⟨short, _, first, afterShort⟩ := Reader.of_bind read
    obtain ⟨length, _, second, afterLength⟩ := Reader.of_bind afterShort
    obtain ⟨typeId, _, third, afterType⟩ := Reader.of_bind afterLength
    obtain ⟨streamId, _, fourth, afterStream⟩ := Reader.of_bind afterType
    obtain ⟨timed, more, fifth, _⟩ := Reader.of_bind afterStream
    obtain ⟨shortSmall, rfl⟩ := Reader.of_be first
    obtain ⟨lengthSmall, rfl⟩ := Reader.of_be second
    obtain rfl := Reader.of_byte third
    obtain ⟨streamSmall, rfl⟩ := Reader.of_le fourth
    obtain ⟨time, rfl, rfl⟩ := of_readTime shortSmall fifth
    have same : (UInt32.ofNat streamId).toNat = streamId := UInt32.toNat_ofNat_of_lt' streamSmall
    refine ⟨.full time ⟨length, lengthSmall⟩ typeId (UInt32.ofNat streamId), more, rfl, trivial, ?_⟩
    simp only [Header.toBytes, same, List.append_assoc, List.cons_append]
  | sameStream =>
    obtain ⟨short, _, first, afterShort⟩ := Reader.of_bind read
    obtain ⟨length, _, second, afterLength⟩ := Reader.of_bind afterShort
    obtain ⟨typeId, _, third, afterType⟩ := Reader.of_bind afterLength
    obtain ⟨timed, more, fourth, _⟩ := Reader.of_bind afterType
    obtain ⟨shortSmall, rfl⟩ := Reader.of_be first
    obtain ⟨lengthSmall, rfl⟩ := Reader.of_be second
    obtain rfl := Reader.of_byte third
    obtain ⟨time, rfl, rfl⟩ := of_readTime shortSmall fourth
    refine ⟨.sameStream time ⟨length, lengthSmall⟩ typeId, more, rfl, trivial, ?_⟩
    simp only [Header.toBytes, List.append_assoc, List.cons_append]
  | sameLength =>
    obtain ⟨short, _, first, afterShort⟩ := Reader.of_bind read
    obtain ⟨timed, more, second, _⟩ := Reader.of_bind afterShort
    obtain ⟨shortSmall, rfl⟩ := Reader.of_be first
    obtain ⟨time, rfl, rfl⟩ := of_readTime shortSmall second
    refine ⟨.sameLength time, more, rfl, trivial, ?_⟩
    simp only [Header.toBytes, List.append_assoc]
  | bare =>
    simp only [readHeader] at read
    split at read
    next extended =>
      obtain ⟨number, more, first, _⟩ := Reader.of_bind read
      obtain ⟨small, rfl⟩ := Reader.of_be first
      have same : (UInt32.ofNat number).toNat = number := UInt32.toNat_ofNat_of_lt' small
      refine ⟨.bare (some (UInt32.ofNat number)), more, rfl, extended.symm, ?_⟩
      rw [Header.toBytes, same]
    next plain => exact ⟨.bare none, input, rfl, by simpa [Header.Fits] using plain, rfl⟩

/-- Nothing but a header is taken over: a reading that succeeds found the bytes of one. -/
theorem of_readHeader {stream result : ChunkStream} {format : Format} {size : Nat} {input rest : Bytes}
    (read : stream.readHeader format input = some ((result, size), rest)) :
    ∃ header : Header, header.format = format ∧ header.Fits stream.isExtended ∧
      input = header.toBytes ++ rest ∧ result = stream.opened header ∧ size = header.toBytes.length := by
  obtain ⟨header, more, rfl, fits, rfl⟩ := header_of_readHeader read
  rw [readHeader_toBytes fits] at read
  cases read
  exact ⟨header, rfl, fits, rfl, rfl, rfl⟩

theorem readChunk_append {stream : ChunkStream} {header : Header} {chunkSize : Nat} {piece : Bytes}
    (fits : header.Fits stream.isExtended)
    (size : piece.length = min ((stream.opened header).length - (stream.opened header).received) chunkSize)
    (rest : Bytes) :
    stream.readChunk header.format chunkSize (header.toBytes ++ (piece ++ rest)) =
      some (((stream.opened header).filled piece, header.toBytes.length + piece.length), rest) := by
  rw [readChunk, Reader.bind_some (readHeader_toBytes fits (piece ++ rest))]
  dsimp only
  rw [← size, Reader.bind_some (Reader.take_append piece rest)]
  simp only [filled, List.reverseAux_eq]
  rfl

theorem of_readChunk {stream result : ChunkStream} {format : Format} {chunkSize size : Nat} {input rest : Bytes}
    (read : stream.readChunk format chunkSize input = some ((result, size), rest)) :
    ∃ (header : Header) (piece : Bytes), header.format = format ∧ header.Fits stream.isExtended ∧
      piece.length = min ((stream.opened header).length - (stream.opened header).received) chunkSize ∧
      input = header.toBytes ++ (piece ++ rest) ∧ result = (stream.opened header).filled piece ∧
      size = header.toBytes.length + piece.length := by
  obtain ⟨⟨opened, taken⟩, middle, first, second⟩ := Reader.of_bind read
  obtain ⟨header, rfl, fits, rfl, rfl, rfl⟩ := of_readHeader first
  obtain ⟨piece, _, cut, _⟩ := Reader.of_bind second
  obtain ⟨exactly, rfl⟩ := Reader.of_take cut
  rw [readChunk_append fits exactly] at read
  cases read
  exact ⟨header, piece, rfl, fits, exactly, rfl, rfl, rfl⟩

end ChunkStream
end RtmpRelay
