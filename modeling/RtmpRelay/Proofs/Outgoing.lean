import RtmpRelay.Proofs.Exchange
import RtmpRelay.Proofs.Lasting

/-! What goes out to a client besides the end of a stream. Neither a packet nor an answer to a message announces that end,
and the only chunk size that is ever announced is a valid one, so that a client in step refuses nothing of it. -/

namespace RtmpRelay

/-- The user control message that announces the end of a stream, whichever it is. -/
def Message.AnnouncesEnd (message : Message) : Prop :=
  message.typeId = 4 ∧ message.payload.take 2 = [0, 1]

/-- A message that ends no stream, and that a client in step does not refuse if it sets the chunk size. -/
structure Message.Regular (message : Message) : Prop where
  resizing : message.typeId = 1 → ∃ size, message.SetsChunkSize size
  goesOn : ¬ message.AnnouncesEnd

theorem Message.Regular.of_typeId {message : Message} (setting : message.typeId ≠ 1) (control : message.typeId ≠ 4) :
    message.Regular :=
  ⟨fun same => absurd same setting, fun announces => control announces.1⟩

/-- Events of the user control messages are told apart by their first two bytes. -/
theorem Message.Regular.of_event {message : Message} (type : message.typeId = 4)
    (other : message.payload.take 2 ≠ [0, 1]) : message.Regular := by
  refine ⟨fun same => ?_, fun announces => other announces.2⟩
  rw [type] at same
  cases same

namespace Packet

theorem toMessage_typeId (packet : Packet) : packet.toMessage.typeId ≠ 1 ∧ packet.toMessage.typeId ≠ 4 := by
  show packet.kind.messageType.id ≠ _ ∧ packet.kind.messageType.id ≠ _
  cases packet.kind <;> decide

theorem toMessage_regular (packet : Packet) : packet.toMessage.Regular :=
  .of_typeId packet.toMessage_typeId.1 packet.toMessage_typeId.2

end Packet

namespace Connection

/-- The chunk size that is announced to the client is a valid one. -/
def Ranged (connection : Connection) : Prop :=
  1 ≤ connection.localChunkSize ∧ connection.localChunkSize ≤ 0x7fffffff

theorem Ranged.new (settings : ConnectionSettings) : Ranged (.new settings) := by
  have greater (one other : UInt32) : max one other = if one ≤ other then other else one := rfl
  have smaller (one other : UInt32) : min one other = if one ≤ other then one else other := rfl
  have valid : minChunkSize ≤ maxChunkSize := by decide
  show minChunkSize ≤ max minChunkSize (min settings.chunkSize maxChunkSize) ∧
    max minChunkSize (min settings.chunkSize maxChunkSize) ≤ maxChunkSize
  rw [greater, smaller]
  grind

theorem Answer.regular {connection : Connection} {asked reply : Message} (ranged : connection.Ranged)
    (answer : connection.Answer asked reply) : reply.Regular := by
  cases answer with
  | windowAckSize => exact .of_typeId (show (5 : UInt8) ≠ 1 by decide) (show (5 : UInt8) ≠ 4 by decide)
  | peerBandwidth => exact .of_typeId (show (6 : UInt8) ≠ 1 by decide) (show (6 : UInt8) ≠ 4 by decide)
  | command => exact .of_typeId (show (20 : UInt8) ≠ 1 by decide) (show (20 : UInt8) ≠ 4 by decide)
  | chunkSize =>
    refine ⟨fun _ => ⟨connection.localChunkSize, rfl, rfl, rfl, rfl, ranged⟩, fun announces => ?_⟩
    exact absurd announces.1 (show (1 : UInt8) ≠ 4 by decide)
  | streamBegin => exact .of_event rfl (show [(0 : UInt8), 0] ≠ [0, 1] by decide)
  | streamIsRecorded => exact .of_event rfl (show [(0 : UInt8), 4] ≠ [0, 1] by decide)
  | pingResponse => exact .of_event rfl (show [(0 : UInt8), 7] ≠ [0, 1] by decide)

theorem Takes.localChunkSize {before after : Connection} {taken : Bytes} {completed due : Option Message}
    (takes : before.Takes taken completed due after) : after.localChunkSize = before.localChunkSize := by
  cases takes with
  | @chunk basic stream =>
    obtain ⟨total, window, fields⟩ := before.keep_fields basic.chunkStream stream taken.length
    rw [fields]

theorem respond_localChunkSize {connection next : Connection} {message : Message} {replies : List Message}
    (accepted : connection.respond message = .ok (next, replies)) : next.localChunkSize = connection.localChunkSize := by
  have turn := respond_turn accepted
  generalize message.request? = request at turn
  cases turn <;> rfl

theorem Exchange.regular {start connection : Connection} {read : Bytes} {heard answers : List Message}
    {pending : Option Message} (ranged : start.Ranged) (exchange : Exchange start read heard answers pending connection) :
    connection.Ranged ∧ ∀ answer ∈ answers, answer.Regular := by
  induction exchange with
  | start => exact ⟨ranged, List.forall_mem_nil _⟩
  | chunk _ _ takes ih =>
    refine ⟨by rw [Ranged, takes.localChunkSize]; exact ih.1, List.forall_mem_append.mpr ⟨ih.2, fun answer member => ?_⟩⟩
    obtain ⟨total, rfl⟩ := takes.acknowledgement answer (Option.mem_toList.mp member)
    exact .of_typeId (show (3 : UInt8) ≠ 1 by decide) (show (3 : UInt8) ≠ 4 by decide)
  | @answer _ _ _ replies _ _ next _ accepted ih =>
    obtain ⟨chunkSize, fields⟩ := next.sentAll_fields replies
    refine ⟨?_, List.forall_mem_append.mpr ⟨ih.2, fun reply member => ?_⟩⟩
    · rw [fields, Ranged]
      exact respond_localChunkSize accepted ▸ ih.1
    · exact (respond_answers accepted reply member).regular ih.1

theorem Ranged.lasting : Lasting Ranged where
  phased _ _ ranged := ranged
  chunk := by
    intro endpoint ranged
    cases read : Endpoint.readChunk endpoint with
    | error stop after =>
      cases front : endpoint.connection.nextChunk endpoint.inbound with
      | none =>
        rw [Endpoint.readChunk_none front] at read
        cases read
        exact ranged
      | some chunk =>
        obtain ⟨_, _, ran⟩ := Endpoint.readChunk_some front
        cases read.symm.trans ran
    | ok result after =>
      obtain ⟨_, _, _, takes, _⟩ := Endpoint.readChunk_takes read
      show Ranged after.connection
      rw [Ranged, takes.localChunkSize]
      exact ranged
  handling := by
    refine Endpoint.keeps_handle (fun _ _ ranged => ranged) fun connection message next replies ranged accepted => ?_
    rw [Ranged, respond_localChunkSize accepted]
    exact ranged
  sending := Endpoint.keeps_send fun _ _ ranged => ranged

/-- The answers to a message, if it is not refused. -/
def replies (connection : Connection) (message : Message) : List Message :=
  (connection.respond message).toOption.elim [] Prod.snd

theorem replies_eq {connection next : Connection} {message : Message} {answers : List Message}
    (accepted : connection.respond message = .ok (next, answers)) : connection.replies message = answers := by
  rw [replies, accepted]
  rfl

theorem answer_of_mem_replies {connection : Connection} {message reply : Message}
    (member : reply ∈ connection.replies message) : connection.Answer message reply := by
  cases response : connection.respond message with
  | error error =>
    rw [replies, response] at member
    cases member
  | ok answer =>
    rw [replies_eq response] at member
    exact respond_answers response reply member

end Connection
end RtmpRelay
