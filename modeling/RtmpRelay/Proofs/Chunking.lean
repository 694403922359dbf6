import RtmpRelay.Proofs.Exchange
import RtmpRelay.Proofs.Refusals

/-! Into which chunks a message is cut. They are appended one by one to what was written before, and a header is
refused only when its turn comes; but the first header has the same chunk stream as all others, so that a message is
refused before anything of it is there. What is appended is described without the loop: full pieces and a last one that
is empty only if everything is, no fewer of which would hold the payload, each behind the shortest header there is. -/

namespace RtmpRelay

namespace Bytes

/-- Pieces of one size that hold these bytes, as few as possible, with the remainder last. -/
structure Cut (size : Nat) (bytes : Bytes) (pieces : List Bytes) : Prop where
  whole : pieces.flatten = bytes
  full : ∀ piece ∈ pieces.dropLast, piece.length = size
  last : ∀ piece, pieces.getLast? = some piece → piece.length ≤ size ∧ (piece = [] → bytes = [])
  count : pieces.length = max 1 ((bytes.length + size - 1) / size)
  fewest : ∀ others : List Bytes, others ≠ [] → others.flatten = bytes → (∀ piece ∈ others, piece.length ≤ size) →
    pieces.length ≤ others.length

theorem length_flatten_le {size : Nat} {pieces : List Bytes} (small : ∀ piece ∈ pieces, piece.length ≤ size) :
    pieces.flatten.length ≤ size * pieces.length := by
  induction pieces with
  | nil => exact Nat.zero_le _
  | cons piece pieces ih =>
    obtain ⟨first, others⟩ := List.forall_mem_cons.mp small
    have further := ih others
    rw [List.flatten_cons, List.length_append, List.length_cons, Nat.mul_succ]
    omega

theorem pieces_ne_nil {size : Nat} (positive : 0 < size) (bytes : Bytes) : pieces size bytes ≠ [] := by
  rw [pieces_eq_cons positive]
  exact List.cons_ne_nil _ _

theorem pieces_full {size : Nat} (positive : 0 < size) (bytes : Bytes) :
    ∀ piece ∈ (pieces size bytes).dropLast, piece.length = size := by
  rw [pieces_eq_cons positive]
  split
  next => exact fun piece member => nomatch member
  next long =>
    have fewer : (bytes.drop size).length < bytes.length := by rw [List.length_drop]; omega
    rw [List.dropLast_cons_of_ne_nil (pieces_ne_nil positive _), List.forall_mem_cons]
    exact ⟨List.length_take_of_le (by omega), pieces_full positive (bytes.drop size)⟩
termination_by bytes.length

theorem pieces_last {size : Nat} (positive : 0 < size) (bytes : Bytes) :
    ∀ piece, (pieces size bytes).getLast? = some piece → piece.length ≤ size ∧ (piece = [] → bytes = []) := by
  rw [pieces_eq_cons positive]
  split
  next short =>
    rintro _ ⟨⟩
    rw [List.take_of_length_le short]
    exact ⟨short, id⟩
  next long =>
    have fewer : (bytes.drop size).length < bytes.length := by rw [List.length_drop]; omega
    intro piece found
    rw [List.getLast?_cons_of_ne_nil (pieces_ne_nil positive _)] at found
    obtain ⟨small, empty⟩ := pieces_last positive (bytes.drop size) piece found
    refine ⟨small, fun nothing => ?_⟩
    have ended := List.drop_eq_nil_iff.mp (empty nothing)
    omega
termination_by bytes.length

theorem cut_pieces {size : Nat} (positive : 0 < size) (bytes : Bytes) : Cut size bytes (pieces size bytes) where
  whole := flatten_pieces size bytes
  full := pieces_full positive bytes
  last := pieces_last positive bytes
  count := length_pieces positive bytes
  fewest := by
    intro others some whole small
    have enough := length_flatten_le small
    have atLeastOne := List.length_pos_iff.mpr some
    rw [length_pieces positive, Nat.max_le]
    refine ⟨atLeastOne, ?_⟩
    rw [whole] at enough
    have ceiling : (bytes.length + size - 1) / size < others.length + 1 := by
      refine Nat.div_lt_of_lt_mul ?_
      rw [Nat.mul_succ]
      omega
    omega

end Bytes

namespace Chunk.BasicHeader

/-- These bytes are read as this header, in front of anything. -/
def Spells (header : BasicHeader) (bytes : Bytes) : Prop :=
  ∀ rest, read (bytes ++ rest) = some ((header, bytes.length), rest)

structure Shortest (header : BasicHeader) (bytes : Bytes) : Prop where
  spells : Spells header bytes
  least : ∀ other, Spells header other → bytes.length ≤ other.length

theorem Spells.ranges {header : BasicHeader} {bytes : Bytes} (spells : Spells header bytes) :
    bytes.length = 1 ∧ header.chunkStream.toNat < 64 ∨
    bytes.length = 2 ∧ 64 ≤ header.chunkStream.toNat ∧ header.chunkStream.toNat < 320 ∨
    bytes.length = 3 ∧ 64 ≤ header.chunkStream.toNat := by
  have front := spells []
  obtain ⟨size, same⟩ : ∃ size, size = bytes.length := ⟨_, rfl⟩
  rw [← same] at front ⊢
  obtain ⟨first, middle, _, answer⟩ := Reader.of_bind front
  dsimp only at answer
  split at answer
  · obtain ⟨next, after, _, last⟩ := Reader.of_bind answer
    cases last
    have small : next.toNat < 256 := next.toNat_lt
    refine .inr (.inl ⟨rfl, ?_⟩)
    simp only [UInt32.toNat_ofNat']
    omega
  · split at answer
    · obtain ⟨number, after, second, last⟩ := Reader.of_bind answer
      obtain ⟨small, _⟩ := Reader.of_le second
      cases last
      refine .inr (.inr ⟨rfl, ?_⟩)
      simp only [UInt32.toNat_ofNat']
      omega
    · cases answer
      refine .inl ⟨rfl, ?_⟩
      simp only [UInt32.toNat_ofNat']
      omega

theorem shortest_toBytes {header : BasicHeader} {bytes : Bytes} (written : header.toBytes = .ok bytes) :
    Shortest header bytes where
  spells := read_toBytes written
  least := by
    intro other spells
    have ranges := spells.ranges
    have own := Spells.ranges (read_toBytes written)
    simp only [toBytes] at written
    split at written
    next => cases written
    next =>
      split at written
      next => cases written; simp only [List.length_cons, List.length_nil]; omega
      next =>
        split at written
        next => cases written; simp only [List.length_cons, List.length_nil]; omega
        next => omega

end Chunk.BasicHeader

namespace Chunk

/-- Appends to what is there. A failed writing leaves what it has appended. -/
abbrev Writer := EStateM Error (Array UInt8)

def append (bytes : Bytes) : Writer Unit :=
  modify fun out : Array UInt8 => out ++ bytes

def BasicHeader.append (header : BasicHeader) : Writer Unit :=
  match header.toBytes with
  | .ok bytes => Chunk.append bytes
  | .error error => throw error

end Chunk

namespace Message
open Chunk (BasicHeader Writer)

/-- The chunk at offset zero is the first one. -/
def appendHeader (message : Message) (offset : Nat) : Writer Unit := do
  if offset = 0 then
    BasicHeader.append ⟨.full, message.chunkStream⟩
    Chunk.append message.fullHeader
  else BasicHeader.append ⟨.bare, message.chunkStream⟩

/-- Appends the chunks from an offset of the payload on. -/
def appendFrom (message : Message) (size offset : Nat) : Writer Unit := do
  let stop := min (offset + max size 1) message.payload.length
  message.appendHeader offset
  Chunk.append message.extendedTime
  Chunk.append ((message.payload.drop offset).take (stop - offset))
  if message.payload.length ≤ stop then return
  else appendFrom message size stop
termination_by message.payload.length - offset

def append (message : Message) (size : UInt32) : Writer Unit := do
  if maxMessageLength < message.payload.length then
    throw (.violation (.messageLength message.payload.length))
  appendFrom message size.toNat 0

section Loop
variable {message : Message} {size : Nat} {full bare : Bytes}

theorem header_append {header : BasicHeader} {bytes : Bytes} (written : header.toBytes = .ok bytes)
    (out : Array UInt8) : BasicHeader.append header out = .ok () (out ++ bytes) := by
  rw [BasicHeader.append, written]
  rfl

theorem header_refused {header : BasicHeader} {error : Error} (refused : header.toBytes = .error error)
    (out : Array UInt8) : BasicHeader.append header out = .error error out := by
  rw [BasicHeader.append, refused]
  rfl

/-- One round: a header, the time if it is long, and a piece, and then the next round if there is more. -/
theorem appendFrom_round {head : Bytes} {offset : Nat} {out : Array UInt8}
    (headed : message.appendHeader offset out = .ok () (out ++ head)) :
    appendFrom message size offset out =
      (if message.payload.length ≤ offset + max size 1 then pure ()
        else appendFrom message size (offset + max size 1) : Writer Unit)
        (out ++ (head ++ message.extendedTime ++ (message.payload.drop offset).take (max size 1))) := by
  have piece : (message.payload.drop offset).take (min (offset + max size 1) message.payload.length - offset) =
      (message.payload.drop offset).take (max size 1) := by
    rw [List.take_eq_take_iff, List.length_drop]
    omega
  have appended : ∀ (bytes : Bytes) (next : Writer Unit) (before : Array UInt8),
      (Chunk.append bytes >>= fun _ => next) before = next (before ++ bytes) := fun _ _ _ => rfl
  rw [appendFrom, Amf.run_bind_ok headed, appended, appended, piece, Bytes.append_append, Bytes.append_append,
    List.append_assoc]
  by_cases ended : message.payload.length ≤ offset + max size 1
  · rw [if_pos ended, if_pos (by omega)]
  · rw [if_neg ended, if_neg (by omega), Nat.min_eq_left (by omega)]

theorem appendFrom_behind (continuation : BasicHeader.toBytes ⟨.bare, message.chunkStream⟩ = .ok bare) {offset : Nat}
    (behind : offset ≠ 0) (out : Array UInt8) : appendFrom message size offset out = .ok ()
      (out ++ ((Bytes.pieces (max size 1) (message.payload.drop offset)).map
        (bare ++ message.extendedTime ++ ·)).flatten) := by
  have headed : message.appendHeader offset out = .ok () (out ++ bare) := by
    rw [appendHeader, if_neg behind]
    exact header_append continuation out
  rw [appendFrom_round headed, Bytes.pieces_eq_cons (by omega), List.length_drop, List.drop_drop]
  by_cases ended : message.payload.length ≤ offset + max size 1
  · rw [if_pos ended, if_pos (by omega), List.map_singleton, List.flatten_singleton]
    rfl
  · rw [if_neg ended, if_neg (by omega), appendFrom_behind continuation (by omega), Bytes.append_append,
      List.map_cons, List.flatten_cons]
termination_by message.payload.length - offset

/-- The loop is never left half way: a message is appended as a whole, or refused with nothing appended. -/
theorem append_eq (message : Message) (size : UInt32) (out : Array UInt8) : message.append size out =
    match message.toBytes size with
    | .ok bytes => .ok () (out ++ bytes)
    | .error error => .error error out := by
  by_cases long : maxMessageLength < message.payload.length
  · rw [append, if_pos long, toBytes, chunks, if_pos long]
    rfl
  rw [append, if_neg long]
  change message.appendFrom size.toNat 0 out = _
  cases opening : BasicHeader.toBytes ⟨.full, message.chunkStream⟩ with
  | error error =>
    have refused : message.toBytes size = .error error := by
      simp only [toBytes, chunks, if_neg long, opening]
      rfl
    have headed : message.appendHeader 0 out = .error error out := by
      rw [appendHeader, if_pos rfl, Amf.run_bind_error (header_refused opening out)]
    rw [refused, appendFrom, Amf.run_bind_error headed]
  | ok full =>
    have encodable := BasicHeader.encodable_of_toBytes opening
    obtain ⟨bare, continuation, _⟩ := BasicHeader.toBytes_ok encodable .bare
    have pieces := Bytes.pieces_eq_cons (show 0 < max size.toNat 1 by omega) message.payload
    have written := toBytes_eq (Nat.le_of_not_lt long) opening continuation pieces
    have headed : message.appendHeader 0 out = .ok () (out ++ (full ++ message.fullHeader)) := by
      rw [appendHeader, if_pos rfl, Amf.run_bind_ok (header_append opening out), ← Bytes.append_append]
      rfl
    rw [written, appendFrom_round headed, Nat.zero_add, List.drop_zero]
    by_cases ended : message.payload.length ≤ max size.toNat 1
    · rw [if_pos ended, if_pos ended, List.map_nil, List.flatten_nil, List.append_nil]
      rfl
    · rw [if_neg ended, if_neg ended, appendFrom_behind continuation (by omega), Bytes.append_append]

end Loop

/-- The chunks of a message: each piece of the payload behind the shortest header of its chunk stream, the first one
with all that announces the message, and every one with the time if that is too long for three bytes. -/
def ChunkedInto (message : Message) (size : Nat) (chunks : List Bytes) : Prop :=
  let time := message.timestamp.toNat
  let extended := if 0xffffff ≤ time then Bytes.be 4 time else []
  let announced := Bytes.be 3 (if 0xffffff ≤ time then 0xffffff else time) ++ Bytes.be 3 message.payload.length ++
    [message.typeId] ++ Bytes.le 4 message.streamId.toNat
  ∃ full bare first others, BasicHeader.Shortest ⟨.full, message.chunkStream⟩ full ∧
    BasicHeader.Shortest ⟨.bare, message.chunkStream⟩ bare ∧ Bytes.Cut size message.payload (first :: others) ∧
    chunks = (full ++ announced ++ extended ++ first) :: others.map (bare ++ extended ++ ·)

theorem chunkedInto_of_toBytes {message : Message} {size : UInt32} {bytes : Bytes}
    (written : message.toBytes size = .ok bytes) :
    ∃ chunks, bytes = chunks.flatten ∧ message.ChunkedInto (max size.toNat 1) chunks := by
  have fits := Fits.of_toBytes written
  obtain ⟨full, opening, _⟩ := BasicHeader.toBytes_ok fits.chunkStream .full
  obtain ⟨bare, continuation, _⟩ := BasicHeader.toBytes_ok fits.chunkStream .bare
  have positive : 0 < max size.toNat 1 := by omega
  have cut := Bytes.cut_pieces positive message.payload
  rw [Bytes.pieces_eq_cons positive] at cut
  rw [toBytes_eq fits.length opening continuation (Bytes.pieces_eq_cons positive _)] at written
  cases written
  refine ⟨_ :: List.map _ _, (List.flatten_cons).symm, full, bare, _, _, BasicHeader.shortest_toBytes opening,
    BasicHeader.shortest_toBytes continuation, cut, ?_⟩
  have extended : message.extendedTime =
      if 0xffffff ≤ message.timestamp.toNat then Bytes.be 4 message.timestamp.toNat else [] := by
    by_cases long : 0xffffff ≤ message.timestamp.toNat
    · rw [if_pos long, extendedTime, if_pos (show message.hasExtendedTime = true from decide_eq_true long)]
    · rw [if_neg long, extendedTime, if_neg (show ¬ message.hasExtendedTime = true from mt of_decide_eq_true long)]
  have short : min message.timestamp.toNat shortTimestampEnd =
      if 0xffffff ≤ message.timestamp.toNat then 0xffffff else message.timestamp.toNat := by
    rw [shortTimestampEnd]
    split <;> omega
  rw [fullHeader, short, extended]

theorem toBytes_ok_iff (message : Message) (size : UInt32) :
    (∃ bytes, message.toBytes size = .ok bytes) ↔ message.payload.length ≤ 0xffffff ∧
      2 ≤ message.chunkStream.toNat ∧ message.chunkStream.toNat ≤ 65599 := by
  constructor
  · rintro ⟨bytes, written⟩
    have fits := Fits.of_toBytes written
    exact ⟨fits.length, fits.chunkStream⟩
  · rintro ⟨length, chunkStream⟩
    exact toBytes_ok ⟨chunkStream, length⟩ size

end Message

namespace Endpoint

theorem sendVia_eq (put : Bytes → Action Unit) (message : Message) (endpoint : Endpoint) :
    sendVia put message endpoint =
      match message.toBytes endpoint.connection.outChunkSize with
      | .error error => .error (.failed error) endpoint
      | .ok bytes =>
        match put bytes endpoint with
        | .error stop after => .error stop after
        | .ok () after => .ok () { after with connection := after.connection.sent message } := by
  cases written : message.toBytes endpoint.connection.outChunkSize with
  | error error => rw [sendVia, bind_connection?, bind_error (lift_error written endpoint)]
  | ok bytes =>
    rw [sendVia, bind_connection?, bind_ok (lift_ok written endpoint)]
    cases delivered : put bytes endpoint with
    | error stop after =>
      rw [bind_error delivered]
      dsimp only
      rw [delivered]
    | ok done after =>
      rw [bind_ok delivered]
      dsimp only
      rw [delivered]
      exact sent_run message after

/-- A message is appended in as few chunks as its payload needs, or nothing of it. So it is handed to the transport in
one piece or not at all, and only when it has gone out does a new chunk size hold. -/
theorem messages_are_cut_or_refused (message : Message) (size : UInt32) (out : Array UInt8) :
    ((∃ after, message.append size out = .ok () after) ↔ message.payload.length ≤ 0xffffff ∧
      2 ≤ message.chunkStream.toNat ∧ message.chunkStream.toNat ≤ 65599) ∧
    (match message.append size out with
      | .ok () after =>
        ∃ chunks : List Bytes, after = out ++ chunks.flatten ∧ message.ChunkedInto (max size.toNat 1) chunks
      | .error _ after => after = out) ∧
    (∀ endpoint : Endpoint, send message endpoint =
      match message.append endpoint.connection.outChunkSize endpoint.outbound with
      | .ok () outbound => .ok () { endpoint with connection := endpoint.connection.sent message, outbound }
      | .error error _ => .error (.failed error) endpoint) ∧
    ∀ (put : Bytes → Action Unit) (endpoint : Endpoint), sendVia put message endpoint =
      match message.append endpoint.connection.outChunkSize #[] with
      | .error error _ => .error (.failed error) endpoint
      | .ok () written =>
        match put written.toList endpoint with
        | .error stop after => .error stop after
        | .ok () after => .ok () { after with connection := after.connection.sent message } := by
  refine ⟨?_, ?_, fun endpoint => ?_, fun put endpoint => ?_⟩
  · rw [← Message.toBytes_ok_iff message size, Message.append_eq]
    cases message.toBytes size with
    | ok bytes => exact ⟨fun _ => ⟨bytes, rfl⟩, fun _ => ⟨_, rfl⟩⟩
    | error error => exact ⟨fun ⟨_, never⟩ => (nomatch never), fun ⟨_, never⟩ => (nomatch never)⟩
  · rw [Message.append_eq]
    cases written : message.toBytes size with
    | ok bytes =>
      obtain ⟨chunks, rfl, chunked⟩ := Message.chunkedInto_of_toBytes written
      exact ⟨chunks, rfl, chunked⟩
    | error error => rfl
  · rw [Message.append_eq]
    cases written : message.toBytes endpoint.connection.outChunkSize with
    | ok bytes => exact send_ok written
    | error error => exact send_error written
  · rw [Message.append_eq, sendVia_eq]
    cases message.toBytes endpoint.connection.outChunkSize with
    | ok bytes =>
      dsimp only
      rw [Array.toList_appendList, List.nil_append]
    | error error => rfl

end Endpoint
end RtmpRelay
