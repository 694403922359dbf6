import RtmpRelay.Proofs.ReaderSafety
import RtmpRelay.Proofs.Transfer

/-! The two ends of a connection agree. A sender changes its chunk size right after the message that says so, and a
receiver that handles such a message when it gets it changes its own at the same byte; so at the end of every
message both are in step, and the next one can be cut at the new size. -/

namespace RtmpRelay

namespace Message

/-- A message that sets the chunk size and is not refused. -/
structure SetsChunkSize (message : Message) (size : UInt32) : Prop where
  typeId : message.typeId = 1
  chunkStream : message.chunkStream = 2
  streamId : message.streamId = 0
  payload : message.payload = Bytes.be 4 size.toNat
  range : 1 ≤ size ∧ size ≤ 0x7fffffff

structure Sendable (message : Message) : Prop where
  fits : message.Fits
  resizing : message.typeId = 1 → ∃ size, message.SetsChunkSize size

theorem beValue_word (value : UInt32) : Bytes.beValue (Bytes.be 4 value.toNat) = value.toNat := by
  have small : value.toNat < 256 ^ 4 := Nat.lt_of_lt_of_eq value.toNat_lt (by decide)
  rw [Bytes.beValue_be, Nat.mod_eq_of_lt small]

theorem SetsChunkSize.length {message : Message} {size : UInt32} (sets : message.SetsChunkSize size) :
    message.payload.length = 4 := by
  rw [sets.payload, Bytes.length_be]

theorem SetsChunkSize.fits {message : Message} {size : UInt32} (sets : message.SetsChunkSize size) : message.Fits := by
  refine ⟨?_, ?_⟩
  · rw [sets.chunkStream]
    exact ⟨by decide, by decide⟩
  · rw [sets.length]
    exact (by decide : 4 ≤ maxMessageLength)

theorem SetsChunkSize.positive {message : Message} {size : UInt32} (sets : message.SetsChunkSize size) : 0 < size.toNat :=
  UInt32.lt_iff_toNat_lt.mp (UInt32.lt_of_lt_of_le (by decide : 0 < minChunkSize) sets.range.1)

end Message

namespace Connection
open Message (SetsChunkSize)

variable {message : Message} {size : UInt32}

theorem respond_setsChunkSize (connection : Connection) (sets : message.SetsChunkSize size) :
    connection.respond message = .ok ({ connection with remoteChunkSize := size }, []) := by
  have value : UInt32.ofNat (Bytes.beValue (message.payload.take 4)) = size := by
    rw [List.take_of_length_le (Nat.le_of_eq sets.length), sets.payload, Message.beValue_word, UInt32.ofNat_toNat]
  have inRange : checkChunkSize size = .ok () := by
    rw [checkChunkSize, if_neg]
    · rfl
    · rw [not_or, UInt32.not_lt, UInt32.not_lt]
      exact sets.range
  have type : message.typeId = MessageType.setChunkSize.id := sets.typeId
  have valid := controlValue_ok .setChunkSize sets.chunkStream sets.streamId sets.length
  simp only [respond, Handling.handle, type, MessageType.ofId?_id, Handling.control, valid, value, Handling.lift_ok,
    pure_bind, inRange]
  rfl

theorem respond_misplaced (connection : Connection) (sets : message.typeId = 1)
    (misplaced : message.chunkStream ≠ controlChunkStream) :
    connection.respond message = .error (.violation (.controlChunkStream message.typeId message.chunkStream)) := by
  have invalid : controlValue .setChunkSize message =
      .error (.violation (.controlChunkStream message.typeId message.chunkStream)) := by
    simp only [controlValue, if_pos misplaced]
    rfl
  have type : message.typeId = MessageType.setChunkSize.id := sets
  simp only [respond, Handling.handle, type, MessageType.ofId?_id, Handling.control, invalid, Handling.lift_error]
  rfl

theorem sent_setsChunkSize (connection : Connection) (sets : message.SetsChunkSize size) :
    connection.sent message = { connection with outChunkSize := size } := by
  rw [sent, if_pos ⟨sets.typeId, sets.length⟩, sets.payload, Message.beValue_word, UInt32.ofNat_toNat]

theorem sent_other (connection : Connection) (other : message.typeId ≠ 1) :
    connection.sent message = connection :=
  if_neg fun both => other both.1

end Connection

namespace Endpoint

/-- Reads a message, and handles it if it is of the type that sets the chunk size. A refusal is left to the caller. -/
def accept (refused : Stop → Action Unit) : Action Message := do
  let message ← readMessage
  if message.typeId = 1 then tryCatch (handle message) refused
  return message

def acceptMany (refused : Stop → Action Unit) : Nat → Action (List Message)
  | 0 => return []
  | count + 1 => return (← accept refused) :: (← acceptMany refused count)

section Accepting
variable {refused : Stop → Action Unit} {endpoint after : Endpoint} {message : Message}

theorem accept_other (read : readMessage endpoint = .ok message after)
    (other : message.typeId ≠ 1) : accept refused endpoint = .ok message after := by
  rw [accept, bind_ok read, if_neg other]
  rfl

theorem accept_setsChunkSize {size : UInt32} (read : readMessage endpoint = .ok message after)
    (sets : message.SetsChunkSize size) :
    accept refused endpoint = .ok message { after with
      connection := { after.connection with remoteChunkSize := size } } := by
  have handled : handle message after = .ok () { after with
      connection := { after.connection with remoteChunkSize := size } } :=
    handle_ok (after.connection.respond_setsChunkSize sets)
  rw [accept, bind_ok read, if_pos sets.typeId, bind_ok (tryCatch_ok handled)]
  rfl

theorem acceptMany_cons {count : Nat} (first : accept refused endpoint = .ok message after) {others : List Message}
    {last : Endpoint} (rest : acceptMany refused count after = .ok others last) :
    acceptMany refused (count + 1) endpoint = .ok (message :: others) last := by
  rw [acceptMany, bind_ok first, bind_ok rest]
  rfl

end Accepting

theorem Reached.named {endpoint : Endpoint} (reached : Reached endpoint) : endpoint.connection.Named := by
  intro id
  rw [Connection.chunkStream]
  cases found : endpoint.connection.streams.find? id with
  | none => rfl
  | some stream => exact (reached.sound.streams id stream (Assoc.mem_of_find? found)).named

theorem InStep.halfway : InStep 1 halfway.connection :=
  ⟨by decide +kernel, by decide, Reached.halfway.named⟩

/-- Reading one message that was sent keeps the two in step, also if it moves both to another chunk size. -/
theorem accept_sent {sender : Connection} {receiver : Endpoint} {message : Message} {bytes rest : Bytes}
    (inStep : InStep sender.outChunkSize receiver.connection) (sendable : message.Sendable)
    (written : message.toBytes sender.outChunkSize = .ok bytes) (inbound : receiver.inbound = bytes ++ rest)
    (refused : Stop → Action Unit) :
    ∃ next, accept refused receiver = .ok message next ∧ next.inbound = rest ∧
      InStep (sender.sent message).outChunkSize next.connection := by
  obtain ⟨after, read, left, moved⟩ := readMessage_toBytes inStep sendable.fits written inbound
  by_cases type : message.typeId = 1
  · obtain ⟨size, sets⟩ := sendable.resizing type
    refine ⟨_, accept_setsChunkSize read sets, left, ?_⟩
    rw [Connection.sent_setsChunkSize sender sets]
    exact ⟨rfl, sets.positive, moved.named inStep.named⟩
  · refine ⟨after, accept_other read type, left, ?_⟩
    rw [Connection.sent_other sender type]
    exact inStep.moved moved

theorem acceptMany_sent (messages : List Message) :
    ∀ sender : Endpoint, (∀ message ∈ messages, message.Sendable) →
      ∃ (sent : Endpoint) (written : Bytes), messages.forM send sender = .ok () sent ∧
        sent.outbound = sender.outbound ++ written ∧
        ∀ (receiver : Endpoint) (refused : Stop → Action Unit) (rest : Bytes),
          InStep sender.connection.outChunkSize receiver.connection → receiver.inbound = written ++ rest →
          ∃ next, acceptMany refused messages.length receiver = .ok messages next ∧ next.inbound = rest ∧
            InStep sent.connection.outChunkSize next.connection := by
  induction messages with
  | nil =>
    intro sender _
    refine ⟨sender, [], rfl, rfl, ?_⟩
    intro receiver refused rest inStep inbound
    exact ⟨receiver, rfl, inbound, inStep⟩
  | cons message messages ih =>
    intro sender sendable
    have first := sendable message List.mem_cons_self
    obtain ⟨bytes, written⟩ := Message.toBytes_ok first.fits sender.connection.outChunkSize
    obtain ⟨sent, others, rest_sent, out, follows⟩ := ih { sender with
        connection := sender.connection.sent message, outbound := sender.outbound ++ bytes }
      (fun other member => sendable other (List.mem_cons_of_mem _ member))
    refine ⟨sent, bytes ++ others, ?_, ?_, ?_⟩
    · exact (bind_ok (send_ok written)).trans rest_sent
    · rw [out, Bytes.append_append]
    · intro receiver refused rest inStep inbound
      rw [List.append_assoc] at inbound
      obtain ⟨middle, accepted, left, still⟩ := accept_sent inStep first written inbound refused
      obtain ⟨next, more, unread, together⟩ := follows middle refused rest still left
      exact ⟨next, acceptMany_cons accepted more, unread, together⟩

/-- Whatever list is sent, the receiver gets that list from the bytes that were written: nothing more, and no byte
of what follows. Afterwards the two are still in step. -/
theorem sent_messages_are_received {sender receiver : Endpoint} {messages : List Message}
    (inStep : InStep sender.connection.outChunkSize receiver.connection)
    (sendable : ∀ message ∈ messages, message.Sendable) :
    ∃ (sent : Endpoint) (written : Bytes), messages.forM send sender = .ok () sent ∧
      sent.outbound = sender.outbound ++ written ∧
      ∀ (refused : Stop → Action Unit) (rest : Bytes), ∃ next,
        acceptMany refused messages.length { receiver with inbound := written ++ rest } = .ok messages next ∧
        next.inbound = rest ∧
        next.connection.remoteChunkSize = sent.connection.outChunkSize ∧
        (rest = [] → readMessage next = .error next.starvation next) := by
  obtain ⟨sent, written, went, out, follows⟩ := acceptMany_sent messages sender sendable
  refine ⟨sent, written, went, out, ?_⟩
  intro refused rest
  obtain ⟨next, accepted, unread, together⟩ :=
    follows { receiver with inbound := written ++ rest } refused rest inStep rfl
  refine ⟨next, accepted, unread, together.inForce, ?_⟩
  intro nothing
  exact readMessage_nil (unread.trans nothing)

/-- A change of the chunk size and a message cut at the new size, on a chunk stream on which the receiver has half a
message already. -/
theorem resized_message_is_received :
    ∃ (written : Bytes) (next : Endpoint), InStep 1 halfway.connection ∧
      acceptMany throw 2 { halfway with inbound := written ++ [7] } =
        .ok [⟨2, 0, 1, 0, [0, 0, 0, 2]⟩, ⟨4, 0xffffff, 8, 1, [1, 2, 3]⟩] next ∧
      next.inbound = [7] ∧ next.connection.remoteChunkSize = 2 := by
  let sender : Endpoint := { Endpoint.new .standard with connection := { Connection.new .standard with outChunkSize := 1 } }
  let messages : List Message := [⟨2, 0, 1, 0, [0, 0, 0, 2]⟩, ⟨4, 0xffffff, 8, 1, [1, 2, 3]⟩]
  have sendable : ∀ message ∈ messages, message.Sendable := by
    refine List.forall_mem_cons.mpr ⟨?_, List.forall_mem_singleton.mpr ?_⟩
    · exact ⟨⟨⟨by decide, by decide⟩, by decide⟩, fun _ => ⟨2, rfl, rfl, rfl, rfl, by decide⟩⟩
    · exact ⟨⟨⟨by decide, by decide⟩, by decide⟩, fun type => absurd type (by decide)⟩
  obtain ⟨sent, written, went, _, follows⟩ :=
    sent_messages_are_received (show InStep sender.connection.outChunkSize _ from .halfway) sendable
  obtain ⟨next, accepted, unread, together, _⟩ := follows throw [7]
  have size : (left (messages.forM send sender)).connection.outChunkSize = 2 := by decide +kernel
  rw [went] at size
  exact ⟨written, next, .halfway, accepted, unread, together.trans size⟩

end Endpoint
end RtmpRelay
