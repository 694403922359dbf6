import RtmpRelay.Proofs.Actions

/-! Messages on their way. A transfer is a message and how much of it has gone into chunks. Each chunk may be cut
at another size: what the receiver holds depends on the bytes that have arrived and not on the sizes they came in.
A chunk moves no chunk stream but its own, so it may come between the chunks of other transfers. -/

namespace RtmpRelay

namespace Message
open Chunk (Header Time)

def time (message : Message) : Time :=
  if small : message.timestamp.toNat < shortTimestampEnd then .short ⟨message.timestamp.toNat, small⟩
  else .long message.timestamp

def opening (message : Message) (short : message.payload.length ≤ maxMessageLength) : Header :=
  .full message.time ⟨message.payload.length, Nat.lt_succ_of_le short⟩ message.typeId message.streamId

def continuation (message : Message) : Header :=
  .bare (if message.hasExtendedTime then some message.timestamp else none)

/-- What the receiver holds when so many bytes of the payload have arrived. -/
def arrived (message : Message) (count : Nat) : ChunkStream where
  id := message.chunkStream
  clock := message.timestamp
  length := message.payload.length
  typeId := message.typeId
  streamId := message.streamId
  lastFormat := .full
  isExtended := message.hasExtendedTime
  delta := 0
  received := count
  reversed := (message.payload.take count).reverse
  capacity := message.payload.length

variable {message : Message}

theorem time_value : message.time.value = message.timestamp := by
  unfold time
  split
  next small => exact UInt32.ofNat_toNat
  next => rfl

theorem time_isExtended : message.time.isExtended = message.hasExtendedTime := by
  unfold time hasExtendedTime
  split
  next small => simp [Time.isExtended, small]
  next large => simpa [Time.isExtended] using large

theorem time_field : message.time.field = min message.timestamp.toNat shortTimestampEnd := by
  unfold time
  split
  next small => exact (Nat.min_eq_left (Nat.le_of_lt small)).symm
  next large => exact (Nat.min_eq_right (Nat.le_of_not_lt large)).symm

theorem time_tail : message.time.tail = message.extendedTime := by
  unfold time extendedTime hasExtendedTime
  split
  next small => rw [if_neg (by simpa using small)]; rfl
  next large => rw [if_pos (by simpa using large)]; rfl

theorem opening_toBytes (short : message.payload.length ≤ maxMessageLength) :
    (message.opening short).toBytes = message.fullHeader ++ message.extendedTime := by
  simp only [opening, Header.toBytes, time_field, time_tail, fullHeader, List.append_assoc, List.cons_append,
    List.nil_append]

theorem continuation_toBytes : message.continuation.toBytes = message.extendedTime := by
  unfold continuation extendedTime
  split <;> rfl

theorem opened_opening {stream : ChunkStream} (named : stream.id = message.chunkStream)
    (short : message.payload.length ≤ maxMessageLength) : stream.opened (message.opening short) = message.arrived 0 := by
  simp only [ChunkStream.opened, opening, ChunkStream.begin, arrived, time_value, time_isExtended, named,
    List.take_zero, List.reverse_nil]

theorem isComplete_arrived (count : Nat) : (message.arrived count).isComplete = (count == message.payload.length) := by
  rfl

theorem opened_continuation {count : Nat} (fewer : count < message.payload.length) :
    (message.arrived count).opened message.continuation = message.arrived count := by
  have incomplete : ¬ (message.arrived count).isComplete = true := by
    rw [isComplete_arrived]
    simpa using Nat.ne_of_lt fewer
  rw [continuation, ChunkStream.opened, if_neg incomplete]

theorem filled_arrived (count size : Nat) :
    (message.arrived count).filled ((message.payload.drop count).take size) =
      message.arrived (count + ((message.payload.drop count).take size).length) := by
  have front : message.payload.take (count + ((message.payload.drop count).take size).length) =
      message.payload.take count ++ (message.payload.drop count).take size := by
    rw [List.take_add, List.length_take, ← List.take_eq_take_min]
  simp only [ChunkStream.filled, arrived, front, List.reverse_append]

theorem message_arrived : (message.arrived message.payload.length).message = message := by
  simp [arrived, ChunkStream.message, ChunkStream.payload]

end Message

namespace Connection

/-- Every chunk stream is kept under its own id. -/
def Named (connection : Connection) : Prop :=
  ∀ id, (connection.chunkStream id).id = id

/-- What taking chunks of one chunk stream leaves as it is. -/
structure MovesOnly (id : UInt32) (before after : Connection) : Prop where
  size : after.remoteChunkSize = before.remoteChunkSize
  others : ∀ other, other ≠ id → after.chunkStream other = before.chunkStream other
  named : before.Named → after.Named

theorem MovesOnly.trans {id : UInt32} {first second third : Connection} (start : MovesOnly id first second)
    (finish : MovesOnly id second third) : MovesOnly id first third where
  size := finish.size.trans start.size
  others := fun other distinct => (finish.others other distinct).trans (start.others other distinct)
  named := fun named => finish.named (start.named named)

theorem keep_chunkStream (connection : Connection) (id : UInt32) (stream : ChunkStream) (size : Nat) :
    (connection.keep id stream size).1.chunkStream id = if stream.isComplete then stream.taken else stream := by
  obtain ⟨total, window, fields⟩ := keep_fields connection id stream size
  rw [fields, chunkStream, Assoc.find?_insert_self, Option.getD_some]

theorem keep_movesOnly (connection : Connection) {id : UInt32} {stream : ChunkStream} (named : stream.id = id)
    (size : Nat) : MovesOnly id connection (connection.keep id stream size).1 := by
  have at_id := keep_chunkStream connection id stream size
  obtain ⟨total, window, fields⟩ := keep_fields connection id stream size
  have elsewhere : ∀ other, other ≠ id →
      (connection.keep id stream size).1.chunkStream other = connection.chunkStream other := by
    intro other distinct
    rw [fields, chunkStream, chunkStream, Assoc.find?_insert_of_ne distinct]
  refine ⟨by rw [fields], elsewhere, ?_⟩
  intro before other
  by_cases same : other = id
  · rw [same, at_id]
    split <;> exact named
  · rw [elsewhere other same]
    exact before other

end Connection

/-- A message and, once its first chunk has been cut off, how many bytes of its payload have. -/
structure Transfer where
  message : Message
  cut : Option Nat

namespace Transfer
open Chunk (BasicHeader Header)

def offset (transfer : Transfer) : Nat :=
  transfer.cut.getD 0

def isDone (transfer : Transfer) : Bool :=
  transfer.cut = some transfer.message.payload.length

def piece (transfer : Transfer) (size : UInt32) : Bytes :=
  (transfer.message.payload.drop transfer.offset).take size.toNat

/-- The next chunk: a full header opens the message, bare ones continue it, and each repeats a long time. -/
def chunk (transfer : Transfer) (size : UInt32) : Except Error Bytes := do
  let message := transfer.message
  match transfer.cut with
  | none =>
    let basic ← BasicHeader.toBytes ⟨.full, message.chunkStream⟩
    return basic ++ message.fullHeader ++ message.extendedTime ++ transfer.piece size
  | some _ =>
    let basic ← BasicHeader.toBytes ⟨.bare, message.chunkStream⟩
    return basic ++ message.extendedTime ++ transfer.piece size

def advance (transfer : Transfer) (size : UInt32) : Transfer :=
  { transfer with cut := some (transfer.offset + (transfer.piece size).length) }

/-- The payloads of the chunks that are left if all are cut at one size. -/
def pieces (transfer : Transfer) (size : UInt32) : List Bytes :=
  if transfer.isDone then [] else Bytes.pieces size.toNat (transfer.message.payload.drop transfer.offset)

structure Fits (transfer : Transfer) : Prop where
  length : transfer.message.payload.length ≤ maxMessageLength
  offset : transfer.offset ≤ transfer.message.payload.length

/-- The receiver's side: its chunk stream is as far as the transfer. -/
def Held (transfer : Transfer) (connection : Connection) : Prop :=
  ∀ count, transfer.cut = some count →
    connection.chunkStream transfer.message.chunkStream = transfer.message.arrived count

variable {transfer : Transfer} {size : UInt32}

theorem length_piece : (transfer.piece size).length =
    min (transfer.message.payload.length - transfer.offset) size.toNat := by
  rw [piece, List.length_take, List.length_drop, Nat.min_comm]

theorem Fits.advance (fits : transfer.Fits) (size : UInt32) : (transfer.advance size).Fits := by
  refine ⟨fits.length, ?_⟩
  have offset := fits.offset
  show transfer.offset + (transfer.piece size).length ≤ transfer.message.payload.length
  rw [length_piece]
  omega

theorem isDone_advance : (transfer.advance size).isDone =
    (transfer.message.arrived (transfer.offset + (transfer.piece size).length)).isComplete := by
  simp [isDone, advance, Message.isComplete_arrived, Bool.beq_eq_decide_eq]

theorem offset_lt_advance (positive : 0 < size.toNat) (fits : transfer.Fits)
    (unfinished : (transfer.advance size).isDone = false) : transfer.offset < (transfer.advance size).offset := by
  have offset := fits.offset
  have length : (transfer.piece size).length = _ := length_piece
  rw [isDone_advance, Message.isComplete_arrived, beq_eq_false_iff_ne] at unfinished
  show transfer.offset < transfer.offset + (transfer.piece size).length
  omega

theorem pieces_eq_cons (positive : 0 < size.toNat) (fits : transfer.Fits) (pending : transfer.isDone = false) :
    transfer.pieces size = transfer.piece size :: (transfer.advance size).pieces size := by
  have unfinished : ¬ transfer.isDone = true := by simp [pending]
  have offset := fits.offset
  have length : (transfer.piece size).length = _ := length_piece
  rw [pieces, if_neg unfinished, Bytes.pieces_eq_cons positive, pieces]
  have fewer : (transfer.message.payload.drop transfer.offset).length ≤ size.toNat ↔
      (transfer.advance size).isDone = true := by
    rw [isDone_advance, Message.isComplete_arrived, beq_iff_eq, List.length_drop, length]
    omega
  simp only [fewer]
  split
  next => rfl
  next more =>
    rw [← fewer, List.length_drop] at more
    have moved : (transfer.advance size).offset = transfer.offset + size.toNat := by
      show transfer.offset + (transfer.piece size).length = _
      omega
    rw [List.drop_drop, moved]
    rfl

theorem chunk_advance {bare : Bytes}
    (continuation : BasicHeader.toBytes ⟨.bare, transfer.message.chunkStream⟩ = .ok bare) (size next : UInt32) :
    (transfer.advance size).chunk next =
      .ok (bare ++ transfer.message.extendedTime ++ (transfer.advance size).piece next) := by
  have bareEncoded : BasicHeader.toBytes ⟨.bare, (transfer.advance size).message.chunkStream⟩ = .ok bare := continuation
  rw [chunk]
  simp only [bareEncoded]
  rfl

/-- The header that the receiver has to expect, and the chunk stream that it opens. -/
theorem header_of_chunk {connection : Connection} {bytes : Bytes} (named : connection.Named) (fits : transfer.Fits)
    (pending : transfer.isDone = false) (held : transfer.Held connection) (cut : transfer.chunk size = .ok bytes) :
    ∃ (header : Header) (basic : Bytes),
      BasicHeader.toBytes ⟨header.format, transfer.message.chunkStream⟩ = .ok basic ∧
      header.Fits (connection.chunkStream transfer.message.chunkStream).isExtended ∧
      bytes = basic ++ (header.toBytes ++ transfer.piece size) ∧
      (connection.chunkStream transfer.message.chunkStream).opened header =
        transfer.message.arrived transfer.offset := by
  obtain ⟨message, count⟩ := transfer
  cases count with
  | none =>
    cases encoded : BasicHeader.toBytes ⟨.full, message.chunkStream⟩ with
    | error error => simp [chunk, encoded, bind, Except.bind] at cut
    | ok basic =>
      simp only [chunk, encoded, bind, Except.bind, pure, Except.pure, Except.ok.injEq] at cut
      refine ⟨message.opening fits.length, basic, encoded, trivial, ?_,
        Message.opened_opening (named message.chunkStream) fits.length⟩
      rw [← cut, Message.opening_toBytes]
      simp only [List.append_assoc]
  | some count =>
    have arrived : connection.chunkStream message.chunkStream = message.arrived count := held count rfl
    have fewer : count < message.payload.length := by
      refine Nat.lt_of_le_of_ne fits.offset ?_
      simpa [isDone] using pending
    cases encoded : BasicHeader.toBytes ⟨.bare, message.chunkStream⟩ with
    | error error => simp [chunk, encoded, bind, Except.bind] at cut
    | ok basic =>
      simp only [chunk, encoded, bind, Except.bind, pure, Except.pure, Except.ok.injEq] at cut
      refine ⟨message.continuation, basic, encoded, ?_, ?_, ?_⟩
      · rw [arrived]
        simp only [Message.continuation, Header.Fits, Message.arrived]
        split <;> simp_all
      · rw [← cut, Message.continuation_toBytes]
        simp only [List.append_assoc]
      · rw [arrived]
        exact Message.opened_continuation fewer

end Transfer

namespace Endpoint
open Chunk (BasicHeader)
open Connection (MovesOnly)

/-- The receiver expects chunks of the size that the sender cuts. Its table may be any that reading leaves
(`Reached.named`), with messages half received. -/
structure InStep (size : UInt32) (receiver : Connection) : Prop where
  inForce : receiver.remoteChunkSize = size
  positive : 0 < size.toNat
  named : receiver.Named

theorem InStep.moved {size id : UInt32} {before after : Connection} (inStep : InStep size before)
    (moved : MovesOnly id before after) : InStep size after :=
  ⟨moved.size.trans inStep.inForce, inStep.positive, moved.named inStep.named⟩

variable {endpoint : Endpoint} {transfer : Transfer} {size : UInt32}

theorem readChunk_transfer {bytes rest : Bytes} (inStep : InStep size endpoint.connection) (fits : transfer.Fits)
    (pending : transfer.isDone = false) (held : transfer.Held endpoint.connection)
    (cut : transfer.chunk size = .ok bytes) (inbound : endpoint.inbound = bytes ++ rest) :
    ∃ after, readChunk endpoint = .ok (if (transfer.advance size).isDone then some transfer.message else none) after ∧
      after.inbound = rest ∧ MovesOnly transfer.message.chunkStream endpoint.connection after.connection ∧
      ((transfer.advance size).isDone = false → (transfer.advance size).Held after.connection) := by
  let stream := transfer.message.arrived (transfer.offset + (transfer.piece size).length)
  obtain ⟨header, basic, encoded, expected, rfl, opened⟩ := transfer.header_of_chunk inStep.named fits pending held cut
  have exactly : (transfer.piece size).length =
      min (transfer.message.payload.length - transfer.offset) endpoint.connection.remoteChunkSize.toNat := by
    rw [inStep.inForce]
    exact Transfer.length_piece
  have front : endpoint.connection.nextChunk endpoint.inbound =
      some ((⟨header.format, transfer.message.chunkStream⟩, stream,
        basic.length + (header.toBytes.length + (transfer.piece size).length)), rest) := by
    rw [inbound, List.append_assoc, List.append_assoc,
      Connection.nextChunk_append encoded expected (by rw [opened]; exact exactly) rest, opened, Transfer.piece,
      Message.filled_arrived]
    rfl
  obtain ⟨outbound, events, taken⟩ := readChunk_some front
  have complete : (transfer.advance size).isDone = stream.isComplete := Transfer.isDone_advance
  have result : (if stream.isComplete then some stream.message else none) =
      if (transfer.advance size).isDone then some transfer.message else none := by
    rw [complete]
    split
    next done =>
      have last : transfer.offset + (transfer.piece size).length = transfer.message.payload.length := by
        simpa [stream, Message.isComplete_arrived] using done
      simp only [stream, last, Message.message_arrived]
    next => rfl
  rw [result] at taken
  refine ⟨_, taken, rfl, Connection.keep_movesOnly endpoint.connection (show stream.id = _ from rfl) _, ?_⟩
  intro unfinished count same
  cases same
  rw [complete] at unfinished
  exact (Connection.keep_chunkStream endpoint.connection transfer.message.chunkStream stream _).trans
    (if_neg (by simp [unfinished]))

theorem readMessage_transfer {endpoint : Endpoint} {transfer : Transfer} {bytes bare rest : Bytes}
    (inStep : InStep size endpoint.connection) (fits : transfer.Fits) (pending : transfer.isDone = false)
    (held : transfer.Held endpoint.connection) (cut : transfer.chunk size = .ok bytes)
    (continuation : BasicHeader.toBytes ⟨.bare, transfer.message.chunkStream⟩ = .ok bare)
    (inbound : endpoint.inbound = bytes ++ (((transfer.advance size).pieces size).map
      (bare ++ transfer.message.extendedTime ++ ·)).flatten ++ rest) :
    ∃ after, readMessage endpoint = .ok transfer.message after ∧ after.inbound = rest ∧
      MovesOnly transfer.message.chunkStream endpoint.connection after.connection := by
  have positive := inStep.positive
  obtain ⟨after, read, left, moved, kept⟩ := readChunk_transfer inStep fits pending held cut
    (inbound.trans (List.append_assoc _ _ _))
  cases done : (transfer.advance size).isDone with
  | true =>
    rw [if_pos done] at read
    refine ⟨after, readMessage_of_some read, ?_, moved⟩
    rw [left, Transfer.pieces, if_pos done]
    rfl
  | false =>
    rw [if_neg (by simp [done])] at read
    have fitsAfter := fits.advance size
    rw [Transfer.pieces_eq_cons positive fitsAfter done, List.map_cons, List.flatten_cons] at left
    obtain ⟨last, finished, unread, further⟩ := readMessage_transfer (inStep.moved moved) fitsAfter done (kept done)
      (Transfer.chunk_advance continuation size size) continuation left
    exact ⟨last, (readMessage_of_none read).trans finished, unread, moved.trans further⟩
termination_by transfer.message.payload.length - transfer.offset
decreasing_by
  have further := Transfer.offset_lt_advance positive fits done
  have within : (transfer.advance size).offset ≤ transfer.message.payload.length := fitsAfter.offset
  show transfer.message.payload.length - (transfer.advance size).offset < _
  omega

/-- A message that has been written is read, and nothing else of the connection changes than its chunk stream. -/
theorem readMessage_toBytes {message : Message} {bytes rest : Bytes} (inStep : InStep size endpoint.connection)
    (fits : message.Fits) (written : message.toBytes size = .ok bytes) (inbound : endpoint.inbound = bytes ++ rest) :
    ∃ after, readMessage endpoint = .ok message after ∧ after.inbound = rest ∧
      MovesOnly message.chunkStream endpoint.connection after.connection := by
  obtain ⟨full, opening, _⟩ := BasicHeader.toBytes_ok fits.chunkStream .full
  obtain ⟨bare, continuation, _⟩ := BasicHeader.toBytes_ok fits.chunkStream .bare
  let transfer : Transfer := ⟨message, none⟩
  have whole : transfer.Fits := ⟨fits.length, Nat.zero_le _⟩
  have cut : transfer.chunk size = .ok (full ++ message.fullHeader ++ message.extendedTime ++ transfer.piece size) := by
    simp only [transfer, Transfer.chunk, opening]
    rfl
  have pieces : Bytes.pieces (max size.toNat 1) message.payload =
      transfer.piece size :: (transfer.advance size).pieces size := by
    rw [Nat.max_eq_left inStep.positive]
    exact Transfer.pieces_eq_cons inStep.positive whole rfl
  rw [Message.toBytes_eq fits.length opening continuation pieces] at written
  cases written
  exact readMessage_transfer inStep whole rfl (fun count none => by cases none) cut continuation inbound

end Endpoint
end RtmpRelay
