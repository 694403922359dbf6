import RtmpRelay.Proofs.Exchange

/-! Received bytes are acknowledged. A ledger holds what a server has taken in, and from it follow the numbers without a
bound: all bytes so far, those since the last acknowledgement, and the window that its client has asked for. One counter
of the connection wraps round and the other stops at the largest number of 32 bits; it is shown that neither ever shows
in what is acknowledged, nor when. -/

namespace RtmpRelay

/-- The window that a message sets, if it is not refused. -/
def Message.window? (message : Message) : Option UInt32 :=
  if message.typeId = 5 ∧ message.chunkStream = 2 ∧ message.streamId = 0 ∧ message.payload.length = 4 then
    some (UInt32.ofNat (Bytes.beValue message.payload))
  else none

/-- What a server has taken in: a chunk, together with what was written right after it, or a message that was handled. -/
inductive Entry where
  | chunk (bytes answer : Bytes)
  | handled (message : Message)

/-- The newest entry comes first. -/
abbrev Ledger := List Entry

namespace Ledger

def received : Ledger → Nat
  | [] => 0
  | .chunk bytes _ :: earlier => bytes.length + received earlier
  | .handled _ :: earlier => received earlier

/-- The bytes of the chunks since the last one after which something was written. -/
def unacknowledged : Ledger → Nat
  | [] => 0
  | .chunk bytes answer :: earlier => if answer = [] then bytes.length + unacknowledged earlier else 0
  | .handled _ :: earlier => unacknowledged earlier

def window : Ledger → UInt32
  | [] => 0
  | .chunk _ _ :: earlier => window earlier
  | .handled message :: earlier => message.window?.getD (window earlier)

end Ledger

namespace Chunk

theorem BasicHeader.size_le {header : BasicHeader} {size : Nat} {input rest : Bytes}
    (read : BasicHeader.read input = some ((header, size), rest)) : size ≤ 3 := by
  obtain ⟨first, middle, _, answer⟩ := Reader.of_bind read
  dsimp only at answer
  split at answer
  · obtain ⟨_, _, _, last⟩ := Reader.of_bind answer
    cases last
    omega
  split at answer
  · obtain ⟨_, _, _, last⟩ := Reader.of_bind answer
    cases last
    omega
  · cases answer
    omega

theorem Header.length_le (header : Header) : header.toBytes.length ≤ 15 := by
  have tail_le : ∀ time : Time, time.tail.length ≤ 4 := by
    intro time
    cases time with
    | short => exact Nat.zero_le 4
    | long value => exact Nat.le_of_eq (Bytes.length_be 4 _)
  cases header with
  | full time | sameStream time | sameLength time =>
    have last := tail_le time
    simp only [toBytes, List.length_append, List.length_cons, Bytes.length_be, Bytes.length_le]
    omega
  | bare word =>
    cases word with
    | none => exact Nat.zero_le 15
    | some word => exact Nat.le_trans (Nat.le_of_eq (Bytes.length_be 4 _)) (by decide)

end Chunk

namespace Connection
open ChunkStream (Stored)

/-- However long the input, one chunk of it is a number of 32 bits. -/
theorem Takes.length_lt {before after : Connection} {taken : Bytes} {completed due : Option Message}
    (streams : before.Every Stored) (takes : before.Takes taken completed due after) : taken.length < 2 ^ 32 := by
  cases takes with
  | @chunk basic stream front =>
    obtain ⟨⟨named, size⟩, middle, first, second⟩ := Chunk.Reader.of_bind (front [])
    obtain ⟨⟨held, more⟩, _, third, last⟩ := Chunk.Reader.of_bind second
    simp only [Chunk.Reader.pure_apply, Option.some.injEq, Prod.mk.injEq] at last
    obtain ⟨encodable, _⟩ := Chunk.BasicHeader.of_read first
    have stored := ChunkStream.stored_invariant.chunkStream streams encodable
    obtain ⟨header, piece, _, _, fits, _, _, counted⟩ := ChunkStream.of_readChunk third
    have opened := (stored.sound.opened header).1.length_le
    have basic_le := Chunk.BasicHeader.size_le first
    have header_le := header.length_le
    simp only [maxMessageLength] at opened
    omega

/-- The counters against the true numbers: the first is the remainder of all bytes, the second stops at its end. The
window never reaches beyond that end, so it is full at the same time for the counter as in truth. -/
theorem count_eq (connection : Connection) {bytes total since : Nat} (small : bytes < 2 ^ 32)
    (counted : connection.bytesReceived.toNat = total % 2 ^ 32)
    (waiting : connection.windowReceived.toNat = min since (2 ^ 32 - 1)) :
    connection.count bytes =
      if 0 < connection.remoteWindowAckSize ∧ connection.remoteWindowAckSize.toNat ≤ since + bytes then
        ({ connection with bytesReceived := UInt32.ofNat (total + bytes), windowReceived := 0 },
          some (.acknowledgement (UInt32.ofNat (total + bytes))))
      else
        ({ connection with
          bytesReceived := UInt32.ofNat (total + bytes)
          windowReceived := UInt32.ofNat (min (since + bytes) (2 ^ 32 - 1)) }, none) := by
  have wrapped : connection.bytesReceived + UInt32.ofNat bytes = UInt32.ofNat (total + bytes) := by
    rw [← UInt32.toNat_inj, UInt32.toNat_add, counted, UInt32.toNat_ofNat', UInt32.toNat_ofNat']
    omega
  have stopped : saturatingAdd connection.windowReceived (UInt32.ofNat bytes) =
      UInt32.ofNat (min (since + bytes) (2 ^ 32 - 1)) := by
    rw [saturatingAdd, waiting, UInt32.toNat_ofNat_of_lt' small]
    congr 1
    omega
  have full : connection.remoteWindowAckSize ≤ UInt32.ofNat (min (since + bytes) (2 ^ 32 - 1)) ↔
      connection.remoteWindowAckSize.toNat ≤ since + bytes := by
    have within := connection.remoteWindowAckSize.toNat_lt
    rw [UInt32.le_iff_toNat_le, UInt32.toNat_ofNat_of_lt' (by show _ < 2 ^ 32; omega)]
    omega
  simp only [count, wrapped, stopped, full]

/-- What handling a message may change of what is received: the window if the message sets it, and nothing else. -/
structure Received (window : Option UInt32) (before after : Connection) : Prop where
  bytesReceived : after.bytesReceived = before.bytesReceived
  windowReceived : after.windowReceived = before.windowReceived
  streams : after.streams = before.streams
  window : after.remoteWindowAckSize = window.getD before.remoteWindowAckSize

theorem Received.sentAll {window : Option UInt32} {before after : Connection} (received : Received window before after)
    (messages : List Message) : Received window before (after.sentAll messages) := by
  obtain ⟨chunkSize, fields⟩ := after.sentAll_fields messages
  rw [fields]
  exact ⟨received.bytesReceived, received.windowReceived, received.streams, received.window⟩

section Responding
variable {connection next : Connection} {message : Message} {replies : List Message}

theorem window?_other (other : message.typeId ≠ 5) : message.window? = none :=
  if_neg fun all => other all.1

theorem typeId_of_request {request : Request} (asks : message.request? = some request) : message.typeId ≠ 5 := by
  intro five
  rw [Message.request?, five] at asks
  cases asks

theorem respond_received (accepted : connection.respond message = .ok (next, replies)) :
    Received message.window? connection next := by
  cases respond_accepts accepted with
  | chunkSize type =>
    rw [window?_other (by rw [type]; decide)]
    exact ⟨rfl, rfl, rfl, rfl⟩
  | window type chunkStream streamId length =>
    rw [Message.window?, if_pos ⟨type, chunkStream, streamId, length⟩]
    exact ⟨rfl, rfl, rfl, rfl⟩
  | ping type =>
    rw [window?_other (by rw [type]; decide)]
    exact ⟨rfl, rfl, rfl, rfl⟩
  | idle _ unset =>
    rw [window?_other unset]
    exact ⟨rfl, rfl, rfl, rfl⟩
  | connect asks | createStream asks | publish asks | play asks | close asks =>
    rw [window?_other (typeId_of_request asks)]
    exact ⟨rfl, rfl, rfl, rfl⟩

theorem respond_window {size : UInt32} (sets : message.window? = some size) :
    ∃ next, connection.respond message = .ok (next, []) := by
  rw [Message.window?] at sets
  split at sets
  next valid =>
    obtain ⟨type, chunkStream, streamId, length⟩ := valid
    have named : message.typeId = MessageType.windowAckSize.id := type
    have value := controlValue_ok .windowAckSize chunkStream streamId length
    refine ⟨{ connection with remoteWindowAckSize := UInt32.ofNat (Bytes.beValue (message.payload.take 4)) }, ?_⟩
    simp only [respond, Handling.handle, named, MessageType.ofId?_id, Handling.control, value, Handling.lift_ok, pure_bind]
    rfl
  next => cases sets

end Responding
end Connection

theorem Connection.Answer.typeId {connection : Connection} {asked reply : Message} (answer : connection.Answer asked reply) :
    reply.typeId ≠ 3 := by
  cases answer with
  | windowAckSize => exact show (5 : UInt8) ≠ 3 by decide
  | peerBandwidth => exact show (6 : UInt8) ≠ 3 by decide
  | chunkSize => exact show (1 : UInt8) ≠ 3 by decide
  | streamBegin | streamIsRecorded | pingResponse => exact show (4 : UInt8) ≠ 3 by decide
  | command => exact show (20 : UInt8) ≠ 3 by decide

namespace Endpoint
open Connection (Received)
open Message (Wire)

/-- However handling a message ends, no bytes are taken for it, and none of what goes out is an acknowledgement. -/
theorem handle_received (message : Message) (endpoint : Endpoint) :
    Received message.window? endpoint.connection (left (handle message endpoint)).connection ∧
    ∃ replies last, ∃ answer : Bytes, Wire endpoint.connection.outChunkSize replies answer last ∧
      (∀ reply ∈ replies, reply.typeId ≠ 3) ∧
      (left (handle message endpoint)).outbound = endpoint.outbound ++ answer := by
  rcases handle_answers message endpoint with ⟨error, refused, ran⟩ | ⟨next, replies, sent, bytes, accepted, front, wire, ran⟩
  · have unset : message.window? = none := by
      cases sets : message.window? with
      | none => rfl
      | some size =>
        obtain ⟨next, accepted⟩ := endpoint.connection.respond_window sets
        cases refused.symm.trans accepted
    rw [ran, unset]
    exact ⟨⟨rfl, rfl, rfl, rfl⟩, [], _, [], .nil, List.forall_mem_nil _, Array.appendList_nil.symm⟩
  · have left_eq : left (handle message endpoint) =
        { endpoint with connection := next.sentAll sent, outbound := endpoint.outbound ++ bytes } := by
      rcases ran with ⟨_, went⟩ | ⟨error, failed⟩
      · rw [went]; rfl
      · rw [failed]; rfl
    rw [left_eq]
    refine ⟨(Connection.respond_received accepted).sentAll sent, sent, _, bytes, wire, fun reply member => ?_, rfl⟩
    exact (Connection.respond_answers accepted reply (front.subset member)).typeId

/-- A server after the handshake, whose client sends at any time, and what it has taken in. It reads chunks and handles
messages in any order, also after refusals. -/
inductive Recorded : Ledger → Endpoint → Prop where
  | fresh {settings endpoint}
      (past : endpoint.connection = { Connection.new settings with phase := .readingHeader }) : Recorded [] endpoint
  | feed {ledger endpoint} (recorded : Recorded ledger endpoint) (bytes : Bytes) : Recorded ledger (endpoint.feed bytes)
  | close {ledger endpoint} (recorded : Recorded ledger endpoint) : Recorded ledger endpoint.close
  | chunk {ledger endpoint result next} {bytes answer : Bytes} (recorded : Recorded ledger endpoint)
      (read : readChunk endpoint = .ok result next) (inbound : endpoint.inbound = bytes ++ next.inbound)
      (outbound : next.outbound = endpoint.outbound ++ answer) : Recorded (.chunk bytes answer :: ledger) next
  | handle {ledger endpoint} (recorded : Recorded ledger endpoint) (message : Message) :
      Recorded (.handled message :: ledger) (left (Endpoint.handle message endpoint))

/-- The counters of a connection against its ledger. -/
structure Tallied (ledger : Ledger) (connection : Connection) : Prop where
  total : connection.bytesReceived.toNat = ledger.received % 2 ^ 32
  since : connection.windowReceived.toNat = min ledger.unacknowledged (2 ^ 32 - 1)
  window : connection.remoteWindowAckSize = ledger.window
  streams : connection.Every ChunkStream.Stored

namespace Tallied
variable {ledger : Ledger} {endpoint next : Endpoint} {result : Option Message}

theorem handle (tallied : Tallied ledger endpoint.connection) (message : Message) :
    Tallied (.handled message :: ledger) (left (Endpoint.handle message endpoint)).connection := by
  obtain ⟨received, _⟩ := handle_received message endpoint
  refine ⟨?_, ?_, ?_, ?_⟩
  · rw [received.bytesReceived]
    exact tallied.total
  · rw [received.windowReceived]
    exact tallied.since
  · rw [received.window, tallied.window]
    rfl
  · rw [Connection.Every, received.streams]
    exact tallied.streams

theorem chunk (tallied : Tallied ledger endpoint.connection) (read : readChunk endpoint = .ok result next) :
    ∃ bytes answer : Bytes, endpoint.inbound = bytes ++ next.inbound ∧ next.outbound = endpoint.outbound ++ answer ∧
      (0 < ledger.window ∧ ledger.window.toNat ≤ ledger.unacknowledged + bytes.length →
        (⟨2, 0, 3, 0, Bytes.be 4 ((ledger.received + bytes.length) % 2 ^ 32)⟩ : Message).toBytes
          endpoint.connection.outChunkSize = .ok answer) ∧
      (¬ (0 < ledger.window ∧ ledger.window.toNat ≤ ledger.unacknowledged + bytes.length) → answer = []) ∧
      Tallied (.chunk bytes answer :: ledger) next.connection := by
  obtain ⟨bytes, due, answer, takes, inbound, outbound, written, _⟩ := readChunk_takes read
  have small := takes.length_lt tallied.streams
  have streams : next.connection.Every ChunkStream.Stored := by
    have kept := ChunkStream.stored_invariant.readChunk endpoint tallied.streams
    rwa [read] at kept
  refine ⟨bytes, answer, inbound, outbound, ?_⟩
  generalize next.connection = after at takes streams ⊢
  cases takes with
  | @chunk basic stream front =>
  have counted := Connection.count_eq { endpoint.connection with
    streams := endpoint.connection.streams.insert basic.chunkStream (if stream.isComplete then stream.taken else stream) }
    small tallied.total tallied.since
  change endpoint.connection.keep basic.chunkStream stream bytes.length = _ at counted
  simp only [tallied.window] at counted
  have total : (UInt32.ofNat (ledger.received + bytes.length)).toNat = (bytes.length + ledger.received) % 2 ^ 32 := by
    rw [UInt32.toNat_ofNat', Nat.add_comm]
  by_cases full : 0 < ledger.window ∧ ledger.window.toNat ≤ ledger.unacknowledged + bytes.length
  · rw [if_pos full] at counted
    rw [counted] at written streams ⊢
    have some : answer ≠ [] := Message.toBytes_ne_nil written
    refine ⟨fun _ => written, fun empty => absurd full empty, total, ?_, rfl, streams⟩
    simp only [Ledger.unacknowledged, if_neg some]
    rfl
  · rw [if_neg full] at counted
    rw [counted] at written streams ⊢
    have none : answer = [] := written
    refine ⟨fun always => absurd always full, fun _ => none, total, ?_, rfl, streams⟩
    simp only [Ledger.unacknowledged, if_pos none, Nat.add_comm bytes.length]
    exact UInt32.toNat_ofNat_of_lt' (Nat.lt_of_le_of_lt (Nat.min_le_right _ _) (by decide))

end Tallied

theorem Recorded.tallied {ledger : Ledger} {endpoint : Endpoint} (recorded : Recorded ledger endpoint) :
    Tallied ledger endpoint.connection := by
  induction recorded with
  | fresh past =>
    rw [past]
    exact ⟨rfl, rfl, rfl, fun _ _ member => nomatch member⟩
  | feed recorded bytes ih | close recorded ih => exact ih
  | handle recorded message ih => exact ih.handle message
  | chunk recorded read inbound outbound ih =>
    obtain ⟨bytes, answer, taken, written, _, _, tallied⟩ := ih.chunk read
    rw [inbound] at taken
    rw [outbound] at written
    cases List.append_cancel_right taken
    have listed := congrArg Array.toList written
    rw [Array.toList_appendList, Array.toList_appendList] at listed
    cases List.append_cancel_left listed
    exact tallied

/-- A message is read chunk by chunk, however the reading ends. -/
theorem Recorded.readMessage (endpoint : Endpoint) : ∀ {ledger : Ledger}, Recorded ledger endpoint →
    ∃ chunks : Ledger, (∀ entry ∈ chunks, ∃ bytes answer, entry = .chunk bytes answer) ∧
      Recorded (chunks ++ ledger) (left (Endpoint.readMessage endpoint)) := by
  induction endpoint using chunk_induction with
  | step endpoint ih =>
    intro ledger recorded
    cases front : endpoint.connection.nextChunk endpoint.inbound with
    | none =>
      rw [readMessage_eq, bind_error (readChunk_none front)]
      exact ⟨[], List.forall_mem_nil _, recorded⟩
    | some chunk =>
      obtain ⟨⟨basic, stream, size⟩, rest⟩ := chunk
      obtain ⟨outbound, events, read⟩ := readChunk_some front
      obtain ⟨bytes, _, answer, _, inbound, written, _⟩ := readChunk_takes read
      have further := Recorded.chunk recorded read inbound written
      generalize (if stream.isComplete then some stream.message else none) = result at read
      cases result with
      | some message =>
        rw [readMessage_of_some read]
        exact ⟨[.chunk bytes answer], List.forall_mem_singleton.mpr ⟨bytes, answer, rfl⟩, further⟩
      | none =>
        obtain ⟨chunks, all, last⟩ := ih _ read further
        rw [readMessage_of_none read]
        refine ⟨chunks ++ [.chunk bytes answer], ?_, ?_⟩
        · exact List.forall_mem_append.mpr ⟨all, List.forall_mem_singleton.mpr ⟨bytes, answer, rfl⟩⟩
        · rw [List.append_assoc]
          exact last

/-- In every run, however long: all bytes are counted, modulo two to the 32, and right after a chunk that number is
acknowledged once if the window is full then, and nothing is written otherwise. So fewer bytes than the window are
outstanding after every chunk. A message is read in such chunks, and answers to messages acknowledge nothing. -/
theorem received_bytes_are_acknowledged {ledger : Ledger} {endpoint : Endpoint} (recorded : Recorded ledger endpoint) :
    endpoint.connection.bytesReceived.toNat = ledger.received % 2 ^ 32 ∧
    endpoint.connection.remoteWindowAckSize = ledger.window ∧
    (∀ result next, readChunk endpoint = .ok result next →
      ∃ bytes answer : Bytes, endpoint.inbound = bytes ++ next.inbound ∧ next.outbound = endpoint.outbound ++ answer ∧
        next.connection.bytesReceived.toNat = (ledger.received + bytes.length) % 2 ^ 32 ∧
        (0 < ledger.window ∧ ledger.window.toNat ≤ ledger.unacknowledged + bytes.length →
          (⟨2, 0, 3, 0, Bytes.be 4 ((ledger.received + bytes.length) % 2 ^ 32)⟩ : Message).toBytes
            endpoint.connection.outChunkSize = .ok answer) ∧
        (¬ (0 < ledger.window ∧ ledger.window.toNat ≤ ledger.unacknowledged + bytes.length) → answer = []) ∧
        (0 < ledger.window → Ledger.unacknowledged (.chunk bytes answer :: ledger) < ledger.window.toNat)) ∧
    (∃ chunks : Ledger, (∀ entry ∈ chunks, ∃ bytes answer, entry = .chunk bytes answer) ∧
      Recorded (chunks ++ ledger) (left (Endpoint.readMessage endpoint))) ∧
    ∀ message, ∃ replies last, ∃ answer : Bytes, Wire endpoint.connection.outChunkSize replies answer last ∧
      (∀ reply ∈ replies, reply.typeId ≠ 3) ∧
      (left (handle message endpoint)).outbound = endpoint.outbound ++ answer := by
  have tallied := recorded.tallied
  refine ⟨tallied.total, tallied.window, ?_, Recorded.readMessage endpoint recorded, fun message => ?_⟩
  · intro result next read
    obtain ⟨bytes, answer, inbound, outbound, due, idle, after⟩ := tallied.chunk read
    refine ⟨bytes, answer, inbound, outbound, ?_, due, idle, fun positive => ?_⟩
    · rw [Nat.add_comm]
      exact after.total
    rw [Ledger.unacknowledged]
    have window : 0 < ledger.window.toNat := positive
    by_cases full : ledger.window.toNat ≤ ledger.unacknowledged + bytes.length
    · rw [if_neg (Message.toBytes_ne_nil (due ⟨positive, full⟩))]
      exact window
    · rw [if_pos (idle fun both => full both.2)]
      omega
  · exact (handle_received message endpoint).2

/-- A server whose client has set a window and has then sent a chunk of 14 bytes. -/
def windowed (window : UInt32) : Endpoint :=
  left (handle ⟨2, 0, 5, 0, Bytes.be 4 window.toNat⟩ { Endpoint.new .standard with
    connection := { Connection.new .standard with phase := .readingHeader }
    inbound := [4, 0, 0, 0, 0, 0, 2, 8, 1, 0, 0, 0, 0xaf, 1] })

theorem Recorded.windowed (window : UInt32) :
    Recorded [.handled ⟨2, 0, 5, 0, Bytes.be 4 window.toNat⟩] (windowed window) :=
  .handle (.fresh rfl) _

/-- The chunk fills a window of 14 bytes and leaves room in one of 15. -/
theorem chunk_fills_window :
    (∃ next, readChunk (windowed 14) = .ok (some ⟨4, 0, 8, 1, [0xaf, 1]⟩) next ∧
      (⟨2, 0, 3, 0, [0, 0, 0, 14]⟩ : Message).toBytes 128 = .ok next.outbound.toList) ∧
    ∃ next, readChunk (windowed 15) = .ok (some ⟨4, 0, 8, 1, [0xaf, 1]⟩) next ∧ next.outbound.toList = [] := by
  obtain ⟨first, read⟩ : ∃ next, readChunk (windowed 14) = .ok (some ⟨4, 0, 8, 1, [0xaf, 1]⟩) next := ⟨_, rfl⟩
  obtain ⟨second, also⟩ : ∃ next, readChunk (windowed 15) = .ok (some ⟨4, 0, 8, 1, [0xaf, 1]⟩) next := ⟨_, rfl⟩
  obtain ⟨_, _, filled, _⟩ := received_bytes_are_acknowledged (.windowed 14)
  obtain ⟨_, _, roomy, _⟩ := received_bytes_are_acknowledged (.windowed 15)
  obtain ⟨bytes, answer, inbound, outbound, _, due, _⟩ := filled _ _ read
  obtain ⟨others, nothing, taken, written, _, _, idle, _⟩ := roomy _ _ also
  have whole : (left (readChunk (windowed 14))).inbound = [] ∧ (left (readChunk (windowed 15))).inbound = [] := by
    decide +kernel
  rw [read, also] at whole
  rw [show first.inbound = [] from whole.1, List.append_nil] at inbound
  rw [show second.inbound = [] from whole.2, List.append_nil] at taken
  subst inbound taken
  refine ⟨⟨first, read, ?_⟩, second, also, ?_⟩
  · rw [outbound, Array.toList_appendList]
    exact due (by decide +kernel)
  · rw [written, idle (by decide +kernel)]
    rfl

end Endpoint
end RtmpRelay
