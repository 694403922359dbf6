import RtmpRelay.Proofs.Runs

/-! Reading hostile input is safe. The buffer of a complete message has been moved out, so a chunk must never be
put into it: the invariant says of every chunk stream that its buffer is in place as long as bytes of a message
are missing, and every header that opens a message puts a new one in place first. -/

namespace RtmpRelay

namespace ChunkStream
open Chunk (Header)

/-- The buffer is as long as the message, and the received bytes are at its front. -/
structure Buffered (stream : ChunkStream) : Prop where
  front : stream.reversed.length = stream.received
  capacity : stream.capacity = stream.length

structure Sound (stream : ChunkStream) : Prop where
  received_le : stream.received ≤ stream.length
  length_le : stream.length ≤ maxMessageLength
  buffered : stream.isComplete = false → stream.Buffered

/-- What taking a piece of payload relies on: no subtraction goes below zero, the piece has its place in the
buffer, its end is a number of 32 bits, and while bytes are missing it is not empty. -/
structure Room (stream : ChunkStream) (chunkSize : Nat) : Prop where
  remaining : stream.received ≤ stream.length
  place : stream.received + min (stream.length - stream.received) chunkSize ≤ stream.payload.length
  index : stream.received + min (stream.length - stream.received) chunkSize < 2 ^ 32
  progress : stream.isComplete = false → 0 < min (stream.length - stream.received) chunkSize

theorem Buffered.length_payload {stream : ChunkStream} (buffered : stream.Buffered)
    (received_le : stream.received ≤ stream.length) : stream.payload.length = stream.length := by
  have front := buffered.front
  have capacity := buffered.capacity
  simp only [payload, List.length_append, List.length_reverse, List.length_replicate]
  omega

theorem Buffered.room {stream : ChunkStream} (buffered : stream.Buffered) (sound : stream.Sound) {chunkSize : Nat}
    (positive : 0 < chunkSize) : stream.Room chunkSize := by
  have received_le := sound.received_le
  have length_le := sound.length_le
  have length := buffered.length_payload received_le
  simp only [maxMessageLength] at length_le
  refine ⟨received_le, by omega, by omega, ?_⟩
  intro incomplete
  have missing : stream.received ≠ stream.length := by simpa [isComplete] using incomplete
  omega

theorem received_of_readChunk {stream opened after : ChunkStream} {format : Chunk.Format} {chunkSize size more : Nat}
    {input middle rest : Bytes} (opening : stream.readHeader format input = some ((opened, size), middle))
    (read : stream.readChunk format chunkSize input = some ((after, more), rest)) :
    after.received = opened.received + min (opened.length - opened.received) chunkSize := by
  rw [readChunk, Chunk.Reader.bind_some opening] at read
  obtain ⟨piece, _, _, last⟩ := Chunk.Reader.of_bind read
  cases last
  rfl

theorem Sound.new (id : UInt32) : (new id).Sound :=
  ⟨Nat.le_refl _, Nat.zero_le _, fun incomplete => by cases incomplete⟩

private theorem begin_sound {stream : ChunkStream} (length_le : stream.length ≤ maxMessageLength) :
    stream.begin.Sound ∧ stream.begin.Buffered :=
  ⟨⟨Nat.zero_le _, length_le, fun _ => ⟨rfl, rfl⟩⟩, rfl, rfl⟩

theorem Sound.opened {stream : ChunkStream} (sound : stream.Sound) (header : Header) :
    (stream.opened header).Sound ∧ (stream.opened header).Buffered := by
  cases header with
  | full time length typeId streamId => exact begin_sound (Nat.le_of_lt_succ length.isLt)
  | sameStream time length typeId => exact begin_sound (Nat.le_of_lt_succ length.isLt)
  | sameLength time => exact begin_sound sound.length_le
  | bare word =>
    rw [ChunkStream.opened]
    split
    next complete => exact begin_sound sound.length_le
    next incomplete =>
      have missing : stream.isComplete = false := by simpa using incomplete
      exact ⟨sound, sound.buffered missing⟩

theorem Sound.filled {stream : ChunkStream} (sound : stream.Sound) (buffered : stream.Buffered) {piece : Bytes}
    (fits : piece.length ≤ stream.length - stream.received) :
    (stream.filled piece).Sound ∧ (stream.filled piece).Buffered := by
  have received_le := sound.received_le
  have filled : (stream.filled piece).Buffered := by
    refine ⟨?_, buffered.capacity⟩
    simp only [ChunkStream.filled, List.length_append, List.length_reverse, buffered.front]
    omega
  refine ⟨⟨?_, sound.length_le, fun _ => filled⟩, filled⟩
  show stream.received + piece.length ≤ stream.length
  omega

theorem Sound.taken {stream : ChunkStream} (sound : stream.Sound) (complete : stream.isComplete = true) :
    stream.taken.Sound := by
  refine ⟨sound.received_le, sound.length_le, ?_⟩
  intro incomplete
  exact absurd (show stream.isComplete = false from incomplete) (by simp [complete])

theorem opened_id (stream : ChunkStream) (header : Header) : (stream.opened header).id = stream.id := by
  cases header with
  | full | sameStream | sameLength => rfl
  | bare word => rw [opened]; split <;> rfl

/-- A chunk stream as it stands in a table: under its own id, which a basic header can hold. -/
structure Stored (id : UInt32) (stream : ChunkStream) : Prop where
  named : stream.id = id
  encodable : Chunk.BasicHeader.Encodable id
  sound : stream.Sound

/-- After a chunk the buffer is in place, which is the one thing that a complete stream may have lost before. -/
theorem Stored.readChunk {id : UInt32} {stream after : ChunkStream} {format : Chunk.Format} {chunkSize size : Nat}
    {input rest : Bytes} (stored : Stored id stream)
    (read : stream.readChunk format chunkSize input = some ((after, size), rest)) : Stored id after ∧ after.Buffered := by
  obtain ⟨header, piece, _, _, fits, _, rfl, _⟩ := of_readChunk read
  obtain ⟨opened, buffered⟩ := stored.sound.opened header
  obtain ⟨filled, kept⟩ := opened.filled buffered (fits ▸ Nat.min_le_left _ _)
  exact ⟨⟨(opened_id stream header).trans stored.named, stored.encodable, filled⟩, kept⟩

theorem stored_invariant : Invariant Stored where
  new := fun id encodable => ⟨rfl, encodable, .new id⟩
  chunk := fun _ _ _ _ _ _ _ _ stored read => (stored.readChunk read).1
  taken := fun _ _ stored complete => ⟨stored.named, stored.encodable, stored.sound.taken complete⟩

end ChunkStream

namespace Connection

structure Sound (connection : Connection) : Prop where
  chunkSize : 1 ≤ connection.remoteChunkSize ∧ connection.remoteChunkSize ≤ 0x7fffffff
  streams : connection.Every ChunkStream.Stored

end Connection

namespace Endpoint
open Chunk (BasicHeader)

/-- Only a message can set the chunk size, and it is refused if the size is not a valid one. -/
theorem Reached.chunkSize {endpoint : Endpoint} (reached : Reached endpoint) :
    minChunkSize ≤ endpoint.connection.remoteChunkSize ∧ endpoint.connection.remoteChunkSize ≤ maxChunkSize := by
  let valid (connection : Connection) : Prop :=
    minChunkSize ≤ connection.remoteChunkSize ∧ connection.remoteChunkSize ≤ maxChunkSize
  have chunk : Keeps valid Endpoint.readChunk := by
    intro endpoint kept
    cases front : endpoint.connection.nextChunk endpoint.inbound with
    | none => rw [readChunk_none front]; exact kept
    | some chunk =>
      obtain ⟨⟨basic, stream, size⟩, rest⟩ := chunk
      obtain ⟨outbound, events, taken⟩ := readChunk_some front
      obtain ⟨total, window, fields⟩ := Connection.keep_fields endpoint.connection basic.chunkStream stream size
      rw [taken, left, fields]
      exact kept
  have handling (message : Message) : Keeps valid (Endpoint.handle message) := by
    refine keeps_handle (fun connection chunkSize kept => kept) ?_ message
    intro connection message next replies kept accepted
    rcases (Connection.respond_fields accepted).2 with same | inRange
    · simpa only [valid, same] using kept
    · exact inRange
  have start : minChunkSize ≤ initialChunkSize ∧ initialChunkSize ≤ maxChunkSize := by decide
  exact reached.keeps (fun settings => show valid _ from start) chunk handling

theorem Reached.sound {endpoint : Endpoint} (reached : Reached endpoint) : endpoint.connection.Sound :=
  ⟨reached.chunkSize, ChunkStream.stored_invariant.reached reached⟩

/-- The payload is as long as the chunk stream of the message was told by its header. -/
def Announced (endpoint : Endpoint) (message : Message) : Prop :=
  ∃ stream, (message.chunkStream, stream) ∈ endpoint.connection.streams ∧ message.payload.length = stream.length

theorem readChunk_announced {endpoint next : Endpoint} {message : Message} (reached : Reached endpoint)
    (read : readChunk endpoint = .ok (some message) next) : next.Announced message := by
  cases front : endpoint.connection.nextChunk endpoint.inbound with
  | none => rw [readChunk_none front] at read; cases read
  | some chunk =>
    obtain ⟨⟨basic, stream, size⟩, rest⟩ := chunk
    obtain ⟨outbound, events, taken⟩ := readChunk_some front
    obtain ⟨encodable, _, _, more, middle, arrived⟩ := Connection.of_nextChunk front
    have before := ChunkStream.stored_invariant.chunkStream reached.sound.streams encodable
    obtain ⟨after, buffered⟩ := before.readChunk arrived
    rw [taken] at read
    cases complete : stream.isComplete with
    | false => simp [complete] at read
    | true =>
      simp only [complete, if_true] at read
      cases read
      obtain ⟨total, window, fields⟩ := Connection.keep_fields endpoint.connection basic.chunkStream stream size
      refine ⟨stream.taken, ?_, buffered.length_payload after.sound.received_le⟩
      show (stream.id, stream.taken) ∈ (endpoint.connection.keep basic.chunkStream stream size).1.streams
      rw [fields, after.named, complete]
      exact Assoc.mem_of_find? (Assoc.find?_insert_self ..)

theorem readMessage_announced {endpoint next : Endpoint} {message : Message} (reached : Reached endpoint)
    (read : readMessage endpoint = .ok message next) : next.Announced message := by
  induction endpoint using chunk_induction with
  | step endpoint ih =>
    cases chunk : readChunk endpoint with
    | error stop after => rw [readMessage_eq, bind_error chunk] at read; cases read
    | ok result after =>
      cases result with
      | none =>
        rw [readMessage_of_none chunk] at read
        have further : onward (readChunk endpoint) = some after := by rw [chunk]; rfl
        exact ih after chunk (.chunk reached further) read
      | some completed =>
        rw [readMessage_of_some chunk] at read
        cases read
        exact readChunk_announced reached chunk

/-- In every reached state the table is in order, the chunk in front of the input can be taken without a bound
being missed, and a message that is read has the announced length. -/
theorem reached_reads_safely {endpoint : Endpoint} (reached : Reached endpoint) :
    (1 ≤ endpoint.connection.remoteChunkSize ∧ endpoint.connection.remoteChunkSize ≤ 0x7fffffff) ∧
    (∀ id stream, (id, stream) ∈ endpoint.connection.streams →
      stream.id = id ∧ BasicHeader.Encodable id ∧
      stream.received ≤ stream.length ∧ stream.length ≤ maxMessageLength ∧
      (stream.isComplete = false → stream.payload.length = stream.length)) ∧
    (∀ basic taken input opened size rest,
      BasicHeader.read endpoint.inbound = some ((basic, taken), input) →
      (endpoint.connection.chunkStream basic.chunkStream).readHeader basic.format input = some ((opened, size), rest) →
      opened.Room endpoint.connection.remoteChunkSize.toNat ∧
      ∀ after more left, (endpoint.connection.chunkStream basic.chunkStream).readChunk basic.format
          endpoint.connection.remoteChunkSize.toNat input = some ((after, more), left) →
        opened.isComplete = false → opened.received < after.received) ∧
    (∀ message next, readChunk endpoint = .ok (some message) next → next.Announced message) ∧
    (∀ message next, readMessage endpoint = .ok message next → next.Announced message) := by
  have sound := reached.sound
  have positive : 0 < endpoint.connection.remoteChunkSize.toNat := sound.chunkSize.1
  refine ⟨sound.chunkSize, ?_, ?_, ?_, ?_⟩
  · intro id stream member
    obtain ⟨named, encodable, held⟩ := sound.streams id stream member
    exact ⟨named, encodable, held.received_le, held.length_le,
      fun incomplete => (held.buffered incomplete).length_payload held.received_le⟩
  · intro basic taken input opened size rest front opening
    obtain ⟨encodable, _⟩ := BasicHeader.of_read front
    have stored := ChunkStream.stored_invariant.chunkStream sound.streams encodable
    obtain ⟨header, _, _, _, rfl, _⟩ := ChunkStream.of_readHeader opening
    obtain ⟨held, buffered⟩ := stored.sound.opened header
    have room := buffered.room held positive
    refine ⟨room, ?_⟩
    intro after more left read incomplete
    have moved := ChunkStream.received_of_readChunk opening read
    have progress := room.progress incomplete
    omega
  · intro message next read
    exact readChunk_announced reached read
  · intro message next read
    exact readMessage_announced reached read

/-- An endpoint whose client uses chunks of one byte, before the first chunk of a message of two bytes. -/
def waiting : Endpoint :=
  left (handle ⟨2, 0, 1, 0, [0, 0, 0, 1]⟩ { Endpoint.new .standard with
    connection := { Connection.new .standard with phase := .readingHeader }
    inbound := [4, 0, 0, 0, 0, 0, 2, 8, 1, 0, 0, 0, 0xaf] })

def halfway : Endpoint :=
  left (readChunk waiting)

theorem Reached.halfway : Reached halfway := by
  have before : Reached waiting := .handle (.fresh rfl) ⟨2, 0, 1, 0, [0, 0, 0, 1]⟩ rfl
  exact .chunk before rfl

theorem halfway_reads_safely :
    Reached halfway ∧ ∃ stream, (4, stream) ∈ halfway.connection.streams ∧
      stream.isComplete = false ∧ stream.received < stream.length ∧ stream.payload.length = stream.length := by
  obtain ⟨_, table, _⟩ := reached_reads_safely Reached.halfway
  have member : (4, halfway.connection.chunkStream 4) ∈ halfway.connection.streams := by decide +kernel
  have incomplete : (halfway.connection.chunkStream 4).isComplete = false := by decide +kernel
  obtain ⟨_, _, received_le, _, buffered⟩ := table 4 _ member
  have missing : (halfway.connection.chunkStream 4).received ≠ (halfway.connection.chunkStream 4).length := by
    simpa [ChunkStream.isComplete] using incomplete
  exact ⟨Reached.halfway, _, member, incomplete, Nat.lt_of_le_of_ne received_le missing, buffered incomplete⟩

end Endpoint
end RtmpRelay
