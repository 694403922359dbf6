import RtmpRelay.Proofs.Runs

/-! What a compressed header means depends on the headers before it. The history of a chunk stream is the list of
the headers that opened a message, and the meaning of each field is a function of that list alone; the few fields
that a chunk stream remembers are enough to compute it. -/

namespace RtmpRelay

namespace Chunk

/-- The headers that opened a message, the newest first. -/
abbrev History := List Header

namespace History

def length : History → Nat
  | [] => 0
  | .full _ length _ _ :: _ => length
  | .sameStream _ length _ :: _ => length
  | .sameLength _ :: earlier => length earlier
  | .bare _ :: earlier => length earlier

def typeId : History → UInt8
  | [] => 0
  | .full _ _ typeId _ :: _ => typeId
  | .sameStream _ _ typeId :: _ => typeId
  | .sameLength _ :: earlier => typeId earlier
  | .bare _ :: earlier => typeId earlier

def streamId : History → UInt32
  | [] => 0
  | .full _ _ _ streamId :: _ => streamId
  | .sameStream _ _ _ :: earlier => streamId earlier
  | .sameLength _ :: earlier => streamId earlier
  | .bare _ :: earlier => streamId earlier

/-- Whether the last time took four more bytes, so that bare headers have them too. -/
def isExtended : History → Bool
  | [] => false
  | .full time _ _ _ :: _ => time.isExtended
  | .sameStream time _ _ :: _ => time.isExtended
  | .sameLength time :: _ => time.isExtended
  | .bare _ :: earlier => isExtended earlier

/-- The last time, if it was a step from the message before; none if it was absolute. -/
def step? : History → Option UInt32
  | [] => none
  | .full _ _ _ _ :: _ => none
  | .sameStream time _ _ :: _ => some time.value
  | .sameLength time :: _ => some time.value
  | .bare _ :: earlier => step? earlier

/-- The time of the newest message. A bare header repeats the last time: an absolute one, or a step. -/
def clock : History → UInt32
  | [] => 0
  | .full time _ _ _ :: _ => time.value
  | .sameStream time _ _ :: earlier => clock earlier + time.value
  | .sameLength time :: earlier => clock earlier + time.value
  | .bare word :: earlier =>
    match step? earlier with
    | none => word.getD (clock earlier)
    | some step => clock earlier + word.getD step

def message (history : History) (chunkStream : UInt32) (payload : Bytes) : Message :=
  ⟨chunkStream, clock history, typeId history, streamId history, payload⟩

end History
end Chunk

namespace ChunkStream
open Chunk (Format Header History Reader)

/-- A bare header opens a message only if none is arriving. -/
def opens (stream : ChunkStream) : Header → Bool
  | .bare _ => stream.isComplete
  | _ => true

/-- The states that a chunk stream can get into, each with its history: any chunks arrive, and the payload of a
complete message is moved out. -/
inductive Traced (id : UInt32) : History → ChunkStream → Prop where
  | new : Traced id [] (.new id)
  | chunk {history stream after header chunkSize size more rest} (traced : Traced id history stream)
      (fits : header.Fits stream.isExtended)
      (read : stream.readChunk header.format chunkSize (header.toBytes ++ more) = some ((after, size), rest)) :
      Traced id (if stream.opens header then header :: history else history) after
  | taken {history stream} (traced : Traced id history stream) (complete : stream.isComplete = true) :
      Traced id history stream.taken

structure Reflects (id : UInt32) (history : History) (stream : ChunkStream) : Prop where
  id : stream.id = id
  clock : stream.clock = history.clock
  length : stream.length = History.length history
  typeId : stream.typeId = history.typeId
  streamId : stream.streamId = history.streamId
  isExtended : stream.isExtended = history.isExtended
  step : (if stream.lastFormat = .full then none else some stream.delta) = history.step?

variable {id : UInt32} {history : History} {stream : ChunkStream}

/-- No chunk is read that is not a header of the history and a piece of payload. -/
theorem Traced.readChunk {after : ChunkStream} {format : Format} {chunkSize size : Nat} {input rest : Bytes}
    (traced : Traced id history stream) (read : stream.readChunk format chunkSize input = some ((after, size), rest)) :
    ∃ header : Header, header.format = format ∧
      Traced id (if stream.opens header then header :: history else history) after := by
  obtain ⟨header, piece, rfl, fits, _, rfl, _, _⟩ := of_readChunk read
  exact ⟨header, rfl, traced.chunk fits read⟩

theorem traced_invariant : Invariant fun id stream => ∃ history, Traced id history stream where
  new := fun id _ => ⟨[], .new⟩
  chunk := by
    intro id stream format chunkSize input after size rest ⟨history, traced⟩ read
    obtain ⟨header, _, further⟩ := traced.readChunk read
    exact ⟨_, further⟩
  taken := fun _ _ ⟨history, traced⟩ complete => ⟨history, traced.taken complete⟩

theorem traced_of_reached {endpoint : Endpoint} (reached : Endpoint.Reached endpoint) :
    endpoint.connection.Every fun id stream => ∃ history, Traced id history stream :=
  traced_invariant.reached reached

theorem Reflects.new (id : UInt32) : Reflects id [] (.new id) :=
  ⟨rfl, rfl, rfl, rfl, rfl, rfl, rfl⟩

theorem Reflects.opened (reflects : Reflects id history stream) (header : Header) :
    Reflects id (if stream.opens header then header :: history else history) (stream.opened header) := by
  obtain ⟨named, clock, length, typeId, streamId, isExtended, step⟩ := reflects
  cases header with
  | full time length typeId streamId => exact ⟨named, rfl, rfl, rfl, rfl, rfl, rfl⟩
  | sameStream time length typeId => exact ⟨named, congrArg (· + time.value) clock, rfl, rfl, streamId, rfl, rfl⟩
  | sameLength time => exact ⟨named, congrArg (· + time.value) clock, length, typeId, streamId, rfl, rfl⟩
  | bare word =>
    rw [ChunkStream.opened, opens]
    split
    next complete =>
      refine ⟨named, ?_, length, typeId, streamId, isExtended, step⟩
      rw [History.clock, ← step, ← clock]
      cases stream.lastFormat <;> rfl
    next => exact ⟨named, clock, length, typeId, streamId, isExtended, step⟩

theorem Traced.reflects (traced : Traced id history stream) : Reflects id history stream := by
  induction traced with
  | new => exact .new id
  | @chunk history stream after header chunkSize size more rest traced fits read reflects =>
    rw [ChunkStream.readChunk, Reader.bind_some (readHeader_toBytes fits more)] at read
    obtain ⟨piece, _, cut, last⟩ := Reader.of_bind read
    cases last
    obtain ⟨named, clock, length, typeId, streamId, isExtended, step⟩ := reflects.opened header
    exact ⟨named, clock, length, typeId, streamId, isExtended, step⟩
  | taken traced complete reflects =>
    obtain ⟨named, clock, length, typeId, streamId, isExtended, step⟩ := reflects
    exact ⟨named, clock, length, typeId, streamId, isExtended, step⟩

/-- Reads chunks of these formats one after another, and gives the state after each. -/
def readChunks (chunkSize : Nat) : List Format → ChunkStream → Reader (List ChunkStream)
  | [], _ => return []
  | format :: formats, stream => do
    let (after, _) ← stream.readChunk format chunkSize
    return after :: (← readChunks chunkSize formats after)

/-- Chunks on the wire: each piece of payload behind its header. -/
def wire (headers : List Header) (pieces : List Bytes) : Bytes :=
  (List.zipWith (fun header piece => header.toBytes ++ piece) headers pieces).flatten

theorem filled_filled (stream : ChunkStream) (first second : Bytes) :
    (stream.filled first).filled second = stream.filled (first ++ second) := by
  simp only [filled, List.length_append, List.reverse_append, List.append_assoc, Nat.add_assoc]

theorem opened_bare (incomplete : stream.isComplete = false) (word : Option UInt32) :
    stream.opened (.bare word) = stream :=
  if_neg (by simp [incomplete])

theorem opened_of_isComplete (complete : stream.isComplete = true) (header : Header) :
    ∃ opening : ChunkStream, stream.opened header = opening.begin := by
  cases header with
  | full | sameStream | sameLength => exact ⟨_, rfl⟩
  | bare word => exact ⟨_, if_pos complete⟩

theorem filled_begin {payload : Bytes} (whole : payload.length = stream.length) :
    (stream.begin.filled payload).isComplete = true ∧ (stream.begin.filled payload).payload = payload := by
  refine ⟨?_, ?_⟩
  · simpa [isComplete, filled, begin] using whole
  · simp [ChunkStream.payload, filled, begin, whole]

theorem readChunks_cons {header : Header} {headers : List Header} {chunkSize : Nat} {piece rest : Bytes}
    {pieces : List Bytes} {states : List ChunkStream} (fits : header.Fits stream.isExtended)
    (size : piece.length = min ((stream.opened header).length - (stream.opened header).received) chunkSize)
    (later : ((stream.opened header).filled piece).readChunks chunkSize (headers.map Header.format)
      (wire headers pieces ++ rest) = some (states, rest)) :
    stream.readChunks chunkSize ((header :: headers).map Header.format)
      (wire (header :: headers) (piece :: pieces) ++ rest) =
        some ((stream.opened header).filled piece :: states, rest) := by
  have front : wire (header :: headers) (piece :: pieces) ++ rest =
      header.toBytes ++ (piece ++ (wire headers pieces ++ rest)) := by
    simp only [wire, List.zipWith_cons_cons, List.flatten_cons, List.append_assoc]
  rw [front, List.map_cons, readChunks, Reader.bind_some (readChunk_append fits size _)]
  dsimp only
  rw [Reader.bind_some later]
  rfl

/-- What is missing of a message arrives in as many chunks as it has pieces, and only the last one completes it. -/
theorem readChunks_pieces {chunkSize : Nat} (positive : 0 < chunkSize) (rest : Bytes) (words : List (Option UInt32)) :
    ∀ (history : History) (stream : ChunkStream) (header : Header) (missing : Bytes), Traced id history stream →
      header.Fits stream.isExtended →
      (stream.opened header).received + missing.length = (stream.opened header).length →
      words.length + 1 = (missing.pieces chunkSize).length →
      (∀ word ∈ words, word.isSome = (stream.opened header).isExtended) →
      ∃ states, stream.readChunks chunkSize ((header :: words.map .bare).map Header.format)
          (wire (header :: words.map .bare) (missing.pieces chunkSize) ++ rest) =
            some (states ++ [(stream.opened header).filled missing], rest) ∧
        states.length = words.length ∧ (∀ state ∈ states, state.isComplete = false) ∧
        Traced id (if stream.opens header then header :: history else history) ((stream.opened header).filled missing) := by
  induction words with
  | nil =>
    intro history stream header missing traced fits total count _
    have single : missing.length ≤ chunkSize := by
      rw [Bytes.pieces_eq_cons positive] at count
      by_contra long
      rw [if_neg long, Bytes.pieces_eq_cons positive] at count
      simp at count
    have size : missing.length = min ((stream.opened header).length - (stream.opened header).received) chunkSize := by
      omega
    rw [Bytes.pieces_of_le single]
    exact ⟨[], readChunks_cons fits size rfl, rfl, fun state member => absurd member List.not_mem_nil,
      traced.chunk fits (readChunk_append fits size [])⟩
  | cons word words ih =>
    intro history stream header missing traced fits total count extended
    let first := missing.take chunkSize
    let after := (stream.opened header).filled first
    have long : chunkSize < missing.length := by
      by_contra single
      rw [Bytes.pieces_of_le (Nat.le_of_not_lt single)] at count
      simp at count
    have full : first.length = chunkSize := List.length_take_of_le (Nat.le_of_lt long)
    have left : (missing.drop chunkSize).length + chunkSize = missing.length := by
      rw [List.length_drop]
      omega
    have size : first.length = min ((stream.opened header).length - (stream.opened header).received) chunkSize := by
      omega
    have received : after.received = (stream.opened header).received + first.length := rfl
    have length : after.length = (stream.opened header).length := rfl
    have incomplete : after.isComplete = false := by
      simp only [isComplete, decide_eq_false_iff_not]
      omega
    have same : after.opened (.bare word) = after := opened_bare incomplete word
    have continues : ¬ after.opens (.bare word) = true := by simp [opens, incomplete]
    rw [Bytes.pieces_of_lt positive long] at count ⊢
    obtain ⟨states, later, counted, unfinished, further⟩ := ih _ after (.bare word) (missing.drop chunkSize)
      (traced.chunk fits (readChunk_append fits size [])) (extended word List.mem_cons_self) (by rw [same]; omega)
      (by simpa using count) (by rw [same]; exact fun other member => extended other (List.mem_cons_of_mem _ member))
    rw [same, filled_filled, List.take_append_drop] at later further
    rw [if_neg continues] at further
    refine ⟨after :: states, readChunks_cons fits size later, ?_,
      List.forall_mem_cons.mpr ⟨incomplete, unfinished⟩, further⟩
    rw [List.length_cons, List.length_cons, counted]

/-- Whatever came before on a chunk stream: a header of any format and the bare ones that continue it give one
message, on the last chunk, and its fields are those of the history. -/
theorem message_follows_history {header : Header} {words : List (Option UInt32)} {chunkSize : Nat} {payload : Bytes}
    (traced : Traced id history stream) (complete : stream.isComplete = true)
    (fits : header.Fits history.isExtended) (positive : 0 < chunkSize)
    (announced : payload.length = History.length (header :: history))
    (count : words.length + 1 = max 1 ((payload.length + chunkSize - 1) / chunkSize))
    (extended : ∀ word ∈ words, word.isSome = History.isExtended (header :: history)) (rest : Bytes) :
    ∃ states last,
      stream.readChunks chunkSize ((header :: words.map .bare).map Header.format)
        (wire (header :: words.map .bare) (payload.pieces chunkSize) ++ rest) = some (states ++ [last], rest) ∧
      states.length = words.length ∧ (∀ state ∈ states, state.isComplete = false) ∧
      last.isComplete = true ∧ last.message = History.message (header :: history) id payload ∧
      Traced id (header :: history) last := by
  have reflects := traced.reflects
  have opens : stream.opens header = true := by
    cases header with
    | full | sameStream | sameLength => rfl
    | bare => exact complete
  have after := reflects.opened header
  rw [if_pos opens] at after
  obtain ⟨opening, begun⟩ := opened_of_isComplete complete header
  have whole : payload.length = (stream.opened header).length := announced.trans after.length.symm
  have total : (stream.opened header).received + payload.length = (stream.opened header).length := by
    rw [whole, begun]
    exact Nat.zero_add _
  obtain ⟨states, read, counted, unfinished, further⟩ := readChunks_pieces positive rest words history stream header
    payload traced (reflects.isExtended ▸ fits) total (count.trans (Bytes.length_pieces positive payload).symm)
    (fun word member => (extended word member).trans after.isExtended.symm)
  refine ⟨states, _, read, counted, unfinished, ?_⟩
  rw [if_pos opens] at further
  rw [begun] at after whole further ⊢
  obtain ⟨finished, moved⟩ := filled_begin (show payload.length = opening.length from whole)
  refine ⟨finished, ?_, further⟩
  rw [message, moved, History.message, ← after.clock, ← after.typeId, ← after.streamId, ← after.id]
  rfl

/-- A bare header after an extended step: it adds the time that it brings itself, not the step. -/
theorem bare_header_brings_its_own_step :
    ∃ stream, Traced 4 [.sameStream (.long 0x1000000) 2 8, .full (.short ⟨10, by decide⟩) 0 8 1] stream ∧
      ∃ states last, stream.readChunks 1 [.bare, .bare] [0, 0, 0, 5, 0xaf, 0, 0, 0, 9, 0xb0, 7] =
          some (states ++ [last], [7]) ∧
        last.message = ⟨4, 10 + 0x1000000 + 5, 8, 1, [0xaf, 0xb0]⟩ := by
  let full : Header := .full (.short ⟨10, by decide⟩) 0 8 1
  let step : Header := .sameStream (.long 0x1000000) 2 8
  have empty : Traced 4 [full] _ := @Traced.chunk 4 [] (.new 4) _ full 128 _ [] [] .new trivial rfl
  have stepped : Traced 4 [step, full] _ := @Traced.chunk 4 [full] _ _ step 128 _ [1, 2] [] empty trivial rfl
  have taken : Traced 4 [step, full] _ := stepped.taken rfl
  obtain ⟨states, last, read, _, _, _, message, _⟩ :=
    @message_follows_history 4 [step, full] _ (.bare (some 5)) [some 9] 1 [0xaf, 0xb0] taken rfl rfl (by decide) (by decide) (by decide) (List.forall_mem_singleton.mpr rfl) [7]
  exact ⟨_, taken, states, last, read, message.trans (by decide)⟩

end ChunkStream
end RtmpRelay
