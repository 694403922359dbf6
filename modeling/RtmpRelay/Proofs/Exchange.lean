import RtmpRelay.Proofs.Agreement
import RtmpRelay.Proofs.Hearing

/-! What goes to and fro on a connection, apart from when its bytes come in. A chunk is taken off the front of any input
that starts with it, a message that it completes is answered before the next chunk is looked at, and what has been said
on either side depends on the bytes that were taken and on nothing else. The actions of an endpoint are measured by
that: how many bytes they took, which messages they completed, what they wrote. -/

namespace RtmpRelay

namespace Chunk.Reader

/-- What is read off the front does not depend on what comes behind it. -/
def Exact (reader : Reader α) : Prop :=
  ∀ input value rest, reader input = some (value, rest) →
    ∃ taken, input = taken ++ rest ∧ ∀ more, reader (taken ++ more) = some (value, more)

namespace Exact

theorem pure (value : α) : Exact (pure value : Reader α) := by
  intro input answer rest read
  cases read
  exact ⟨[], rfl, fun _ => rfl⟩

theorem bind {first : Reader α} {next : α → Reader β} (begins : Exact first) (goesOn : ∀ value, Exact (next value)) :
    Exact (first >>= next) := by
  intro input answer rest read
  obtain ⟨value, middle, front, behind⟩ := of_bind read
  obtain ⟨taken, rfl, again⟩ := begins _ _ _ front
  obtain ⟨further, rfl, alike⟩ := goesOn value _ _ _ behind
  refine ⟨taken ++ further, (List.append_assoc _ _ _).symm, fun more => ?_⟩
  rw [List.append_assoc, bind_some (again _)]
  exact alike more

theorem map {first : Reader α} (begins : Exact first) (change : α → β) :
    Exact (first >>= fun value => Pure.pure (change value)) :=
  begins.bind fun _ => .pure _

theorem take (count : Nat) : Exact (take count) := by
  intro input taken rest read
  obtain ⟨rfl, rfl⟩ := of_take read
  exact ⟨taken, rfl, take_append taken⟩

theorem byte : Exact byte := by
  intro input first rest read
  exact ⟨[first], of_byte read, fun _ => rfl⟩

theorem le (width : Nat) : Exact (le width) :=
  (take width).map _

end Exact
end Chunk.Reader

section Readers
open Chunk.Reader (Exact)

theorem Chunk.BasicHeader.read_exact : Exact Chunk.BasicHeader.read := by
  refine Exact.byte.bind fun first => ?_
  dsimp only
  split
  · exact Exact.byte.map _
  split
  · exact (Exact.le 2).map _
  · exact .pure _

namespace ChunkStream

theorem readChunk_exact (stream : ChunkStream) (format : Chunk.Format) (chunkSize : Nat) :
    Exact (stream.readChunk format chunkSize) := by
  intro input result rest read
  obtain ⟨after, size⟩ := result
  obtain ⟨header, piece, rfl, fits, length, rfl, rfl, rfl⟩ := of_readChunk read
  refine ⟨header.toBytes ++ piece, (List.append_assoc _ _ _).symm, fun more => ?_⟩
  rw [List.append_assoc]
  exact readChunk_append fits length more

end ChunkStream

theorem Connection.nextChunk_exact (connection : Connection) : Exact connection.nextChunk :=
  Chunk.BasicHeader.read_exact.bind fun _ => (ChunkStream.readChunk_exact _ _ _).map _

end Readers

namespace Connection

/-- A chunk at the front of the input: the message that it completes, the acknowledgement that is due for it, and the
connection after it. -/
inductive Takes (before : Connection) (taken : Bytes) : Option Message → Option Message → Connection → Prop where
  | chunk {basic : Chunk.BasicHeader} {stream : ChunkStream}
      (front : ∀ more, before.nextChunk (taken ++ more) = some ((basic, stream, taken.length), more)) :
      Takes before taken (if stream.isComplete then some stream.message else none)
        (before.keep basic.chunkStream stream taken.length).2 (before.keep basic.chunkStream stream taken.length).1

theorem nextChunk_taken {connection : Connection} {basic : Chunk.BasicHeader} {stream : ChunkStream} {size : Nat}
    {input rest : Bytes} (front : connection.nextChunk input = some ((basic, stream, size), rest)) :
    ∃ taken, input = taken ++ rest ∧ taken.length = size ∧
      ∀ more, connection.nextChunk (taken ++ more) = some ((basic, stream, size), more) := by
  obtain ⟨taken, rfl, again⟩ := connection.nextChunk_exact _ _ _ front
  obtain ⟨_, _, counted, _⟩ := of_nextChunk front
  rw [List.length_append] at counted
  exact ⟨taken, rfl, by omega, again⟩

namespace Takes
variable {before after : Connection} {taken : Bytes} {completed due : Option Message}

theorem nonempty (takes : before.Takes taken completed due after) : taken ≠ [] := by
  cases takes with
  | chunk front =>
    rintro rfl
    obtain ⟨_, positive, _⟩ := of_nextChunk (front [])
    exact Nat.lt_irrefl _ positive

theorem phase (takes : before.Takes taken completed due after) : after.phase = before.phase := by
  cases takes with
  | @chunk basic stream =>
    obtain ⟨total, window, fields⟩ := before.keep_fields basic.chunkStream stream taken.length
    rw [fields]

theorem outChunkSize (takes : before.Takes taken completed due after) : after.outChunkSize = before.outChunkSize := by
  cases takes with
  | @chunk basic stream =>
    obtain ⟨total, window, fields⟩ := before.keep_fields basic.chunkStream stream taken.length
    rw [fields]

theorem acknowledgement (takes : before.Takes taken completed due after) :
    ∀ message, due = some message → ∃ total : UInt32, message = ⟨2, 0, 3, 0, Bytes.be 4 total.toNat⟩ := by
  cases takes with
  | chunk front => exact fun message same => count_acknowledgement same

end Takes

/-- What a message can be answered with. Commands are answered on the chunk stream and the message stream that they
came on. -/
inductive Answer (connection : Connection) (asked : Message) : Message → Prop where
  | windowAckSize : Answer connection asked ⟨2, 0, 5, 0, Bytes.be 4 connection.windowAckSize.toNat⟩
  | peerBandwidth : Answer connection asked ⟨2, 0, 6, 0, Bytes.be 4 connection.windowAckSize.toNat ++ [2]⟩
  | chunkSize : Answer connection asked ⟨2, 0, 1, 0, Bytes.be 4 connection.localChunkSize.toNat⟩
  | streamBegin (id : UInt32) : Answer connection asked ⟨2, 0, 4, 0, [0, 0] ++ Bytes.be 4 id.toNat⟩
  | streamIsRecorded (id : UInt32) : Answer connection asked ⟨2, 0, 4, 0, [0, 4] ++ Bytes.be 4 id.toNat⟩
  | pingResponse {time : UInt32} {rest : Bytes} (ping : asked.payload = [0, 6] ++ Bytes.be 4 time.toNat ++ rest) :
      Answer connection asked ⟨2, 0, 4, 0, [0, 7] ++ Bytes.be 4 time.toNat⟩
  | command (payload : Bytes) : Answer connection asked ⟨asked.chunkStream, 0, 20, asked.streamId, payload⟩

theorem respond_answers {connection next : Connection} {message : Message} {replies : List Message}
    (accepted : connection.respond message = .ok (next, replies)) : ∀ reply ∈ replies, Answer connection message reply := by
  cases respond_accepts accepted with
  | chunkSize | window | idle | close => exact List.forall_mem_nil _
  | ping _ payload => exact List.forall_mem_singleton.mpr (.pingResponse payload)
  | @connect payload =>
    simp only [List.forall_mem_cons]
    exact ⟨.windowAckSize, .peerBandwidth, .chunkSize, .streamBegin _, .command payload, List.forall_mem_nil _⟩
  | @createStream payload =>
    simp only [List.forall_mem_cons]
    exact ⟨.streamBegin _, .command payload, List.forall_mem_nil _⟩
  | @publish payload => exact List.forall_mem_singleton.mpr (.command payload)
  | @play reset start =>
    simp only [List.forall_mem_cons]
    exact ⟨.chunkSize, .streamIsRecorded _, .streamBegin _, .command reset, .command start, List.forall_mem_nil _⟩

end Connection

theorem Chunk.BasicHeader.encodable_of_toBytes {header : Chunk.BasicHeader} {bytes : Bytes}
    (written : header.toBytes = .ok bytes) : Encodable header.chunkStream := by
  simp only [toBytes] at written
  split at written
  next => cases written
  next low =>
    split at written
    next => exact ⟨by omega, by omega⟩
    next =>
      split at written
      next => exact ⟨by omega, by omega⟩
      next =>
        split at written
        next => exact ⟨by omega, by omega⟩
        next => cases written

namespace Message
open Chunk (BasicHeader)

theorem of_bind {first : Except ε α} {second : α → Except ε β} {answer : β}
    (ran : (first >>= second) = .ok answer) : ∃ value, first = .ok value ∧ second value = .ok answer := by
  cases first with
  | error error => cases ran
  | ok value => exact ⟨value, rfl, ran⟩

theorem Fits.of_toBytes {message : Message} {size : UInt32} {bytes : Bytes} (written : message.toBytes size = .ok bytes) :
    message.Fits := by
  obtain ⟨listed, cut, _⟩ := of_bind written
  rw [chunks] at cut
  split at cut
  next => cases cut
  next short =>
    obtain ⟨full, opening, _⟩ := of_bind cut
    exact ⟨BasicHeader.encodable_of_toBytes opening, Nat.le_of_not_lt short⟩

theorem toBytes_ne_nil {message : Message} {size : UInt32} {bytes : Bytes} (written : message.toBytes size = .ok bytes) :
    bytes ≠ [] := by
  have fits := Fits.of_toBytes written
  obtain ⟨full, opening, some⟩ := BasicHeader.toBytes_ok fits.chunkStream .full
  obtain ⟨bare, continuation, _⟩ := BasicHeader.toBytes_ok fits.chunkStream .bare
  rw [toBytes_eq fits.length opening continuation (Bytes.pieces_eq_cons (by omega) message.payload)] at written
  cases written
  simp [some]

/-- The chunk size once a message has gone out. -/
def sizeAfter (message : Message) (size : UInt32) : UInt32 :=
  if message.typeId = 1 ∧ message.payload.length = 4 then
    UInt32.ofNat (Bytes.beValue message.payload)
  else size

/-- The bytes of messages that are sent one after another from a chunk size on, and the chunk size after them. -/
inductive Wire : UInt32 → List Message → Bytes → UInt32 → Prop where
  | nil {size : UInt32} : Wire size [] [] size
  | cons {size last : UInt32} {message : Message} {messages : List Message} {first bytes : Bytes}
      (written : message.toBytes size = .ok first) (further : Wire (message.sizeAfter size) messages bytes last) :
      Wire size (message :: messages) (first ++ bytes) last

namespace Wire
variable {size middle last : UInt32} {messages others : List Message} {bytes more : Bytes}

theorem single {message : Message} (written : message.toBytes size = .ok bytes) :
    Wire size [message] bytes (message.sizeAfter size) :=
  List.append_nil bytes ▸ .cons written .nil

theorem append (before : Wire size messages bytes middle) (after : Wire middle others more last) :
    Wire size (messages ++ others) (bytes ++ more) last := by
  induction before with
  | nil => exact after
  | cons written further ih =>
    rw [List.append_assoc]
    exact .cons written (ih after)

theorem further {first second third : Array UInt8}
    (before : ∃ bytes : Bytes, second = first ++ bytes ∧ Wire size messages bytes middle)
    (after : ∃ bytes : Bytes, third = second ++ bytes ∧ Wire middle others bytes last) :
    ∃ bytes : Bytes, third = first ++ bytes ∧ Wire size (messages ++ others) bytes last := by
  obtain ⟨bytes, rfl, front⟩ := before
  obtain ⟨rest, rfl, back⟩ := after
  exact ⟨bytes ++ rest, Bytes.append_append first bytes rest, front.append back⟩

theorem fits (wire : Wire size messages bytes last) : ∀ message ∈ messages, message.Fits := by
  induction wire with
  | nil => exact List.forall_mem_nil _
  | cons written _ ih => exact List.forall_mem_cons.mpr ⟨.of_toBytes written, ih⟩

end Wire

theorem sizeAfter_other {message : Message} (other : message.typeId ≠ 1) (size : UInt32) :
    message.sizeAfter size = size :=
  if_neg fun both => other both.1

end Message

namespace Connection

theorem sent_outChunkSize (connection : Connection) (message : Message) :
    (connection.sent message).outChunkSize = message.sizeAfter connection.outChunkSize := by
  rw [sent, Message.sizeAfter]
  split <;> rfl

theorem respond_outChunkSize {connection next : Connection} {message : Message} {replies : List Message}
    (accepted : connection.respond message = .ok (next, replies)) : next.outChunkSize = connection.outChunkSize := by
  have turn := respond_turn accepted
  generalize message.request? = request at turn
  cases turn <;> rfl

/-- The connection after a list of messages has gone out. -/
def sentAll (connection : Connection) (messages : List Message) : Connection :=
  messages.foldl sent connection

theorem sentAll_fields (connection : Connection) (messages : List Message) :
    ∃ chunkSize, connection.sentAll messages = { connection with outChunkSize := chunkSize } := by
  induction messages generalizing connection with
  | nil => exact ⟨_, rfl⟩
  | cons message messages ih =>
    obtain ⟨_, first⟩ := connection.sent_fields message
    obtain ⟨chunkSize, others⟩ := ih (connection.sent message)
    refine ⟨chunkSize, others.trans ?_⟩
    rw [first]

/-- What goes to and fro: the bytes that were taken, the messages that they completed, all that was written because of
them, and the message that has not been answered yet. Nothing is taken before that is done, or once the stream has been
closed. -/
inductive Exchange (start : Connection) : Bytes → List Message → List Message → Option Message → Connection → Prop where
  | start : Exchange start [] [] [] none start
  | chunk {read taken : Bytes} {heard answers : List Message} {completed due : Option Message}
      {connection next : Connection} (before : Exchange start read heard answers none connection)
      (isOpen : connection.phase ≠ .closed) (takes : connection.Takes taken completed due next) :
      Exchange start (read ++ taken) (heard ++ completed.toList) (answers ++ due.toList) completed next
  | answer {read : Bytes} {heard answers replies : List Message} {message : Message} {connection next : Connection}
      (before : Exchange start read heard answers (some message) connection)
      (accepted : connection.respond message = .ok (next, replies)) :
      Exchange start read heard (answers ++ replies) none (next.sentAll replies)

theorem Exchange.nonempty {start connection : Connection} {read : Bytes} {heard answers : List Message}
    {pending : Option Message} (exchange : Exchange start read heard answers pending connection) (some : heard ≠ []) :
    read ≠ [] := by
  induction exchange with
  | start => exact absurd rfl some
  | chunk _ _ takes _ => exact List.append_ne_nil_of_right_ne_nil _ takes.nonempty
  | answer _ _ ih => exact ih some

theorem Exchange.trans {first second third : Connection} {read further : Bytes} {heard others answers more : List Message}
    {pending : Option Message} (before : Exchange first read heard answers none second)
    (after : Exchange second further others more pending third) :
    Exchange first (read ++ further) (heard ++ others) (answers ++ more) pending third := by
  induction after with
  | start => simpa only [List.append_nil] using before
  | chunk _ isOpen takes ih =>
    simp only [← List.append_assoc]
    exact .chunk ih isOpen takes
  | answer _ accepted ih =>
    rw [← List.append_assoc]
    exact .answer ih accepted

/-- Where an exchange stands, with the bytes that it has not taken yet. -/
structure Exchanged where
  connection : Connection
  pending : Option Message
  unread : Bytes
  heard : List Message
  answers : List Message

inductive Exchanged.Step : Exchanged → Exchanged → Prop where
  | chunk {connection next : Connection} {taken unread : Bytes} {heard answers : List Message}
      {completed due : Option Message} (isOpen : connection.phase ≠ .closed)
      (takes : connection.Takes taken completed due next) :
      Step ⟨connection, none, taken ++ unread, heard, answers⟩
        ⟨next, completed, unread, heard ++ completed.toList, answers ++ due.toList⟩
  | answer {connection next : Connection} {message : Message} {unread : Bytes} {heard answers replies : List Message}
      (accepted : connection.respond message = .ok (next, replies)) :
      Step ⟨connection, some message, unread, heard, answers⟩
        ⟨next.sentAll replies, none, unread, heard, answers ++ replies⟩

theorem Takes.unique {before first second : Connection} {taken others unread rest : Bytes}
    {completed due message reply : Option Message} (one : before.Takes taken completed due first)
    (other : before.Takes others message reply second) (same : taken ++ unread = others ++ rest) :
    taken = others ∧ unread = rest ∧ completed = message ∧ due = reply ∧ first = second := by
  cases one with
  | chunk front =>
    cases other with
    | chunk behind =>
      have both := (front unread).symm.trans (same ▸ behind rest)
      simp only [Option.some.injEq, Prod.mk.injEq] at both
      obtain ⟨⟨rfl, rfl, length⟩, rfl⟩ := both
      obtain ⟨rfl, -⟩ := List.append_inj same length
      exact ⟨rfl, rfl, rfl, rfl, rfl⟩

theorem Exchanged.Step.unique : Relator.RightUnique Exchanged.Step := by
  intro before first second one other
  generalize stood : before = start at other
  cases one with
  | chunk isOpen takes =>
    cases other with
    | chunk _ again =>
      simp only [Exchanged.mk.injEq, true_and] at stood
      obtain ⟨rfl, same, rfl, rfl⟩ := stood
      obtain ⟨rfl, rfl, rfl, rfl, rfl⟩ := takes.unique again same
      rfl
    | answer => cases stood
  | answer accepted =>
    cases other with
    | chunk => cases stood
    | answer again =>
      cases stood
      cases accepted.symm.trans again
      rfl

theorem Exchanged.Step.grows {before after : Exchanged} (steps : Relation.ReflTransGen Step before after) :
    before.heard <+: after.heard ∧ before.answers <+: after.answers := by
  induction steps with
  | refl => exact ⟨List.prefix_refl _, List.prefix_refl _⟩
  | tail _ step ih =>
    cases step with
    | chunk => exact ⟨ih.1.trans (List.prefix_append _ _), ih.2.trans (List.prefix_append _ _)⟩
    | answer => exact ⟨ih.1, ih.2.trans (List.prefix_append _ _)⟩

theorem Exchange.steps {start connection : Connection} {read : Bytes} {heard answers : List Message}
    {pending : Option Message} (exchange : Exchange start read heard answers pending connection) :
    ∀ unread, Relation.ReflTransGen Exchanged.Step ⟨start, none, read ++ unread, [], []⟩
      ⟨connection, pending, unread, heard, answers⟩ := by
  induction exchange with
  | start => exact fun _ => .refl
  | chunk _ isOpen takes ih =>
    intro unread
    rw [List.append_assoc]
    exact (ih _).tail (.chunk isOpen takes)
  | answer _ accepted ih => exact fun unread => (ih unread).tail (.answer accepted)

/-- The bytes decide what is said: of two exchanges over one stream one goes on from what the other has come to. -/
theorem Exchange.comparable {start first second : Connection} {read others unread rest : Bytes}
    {heard messages answers replies : List Message} {pending waiting : Option Message}
    (one : Exchange start read heard answers pending first) (other : Exchange start others messages replies waiting second)
    (same : read ++ unread = others ++ rest) :
    heard <+: messages ∧ answers <+: replies ∨ messages <+: heard ∧ replies <+: answers := by
  have before := one.steps unread
  rw [same] at before
  rcases before.total_of_right_unique Exchanged.Step.unique (other.steps rest) with further | earlier
  · exact .inl (Exchanged.Step.grows further)
  · exact .inr (Exchanged.Step.grows earlier)

end Connection

namespace Endpoint
open Message (Wire)
open Connection (Exchange)

/-- From one state of an endpoint to a later one, without bytes coming in. -/
structure Converses (before : Endpoint) (read : Bytes) (heard answers : List Message) (pending : Option Message)
    (after : Endpoint) : Prop where
  exchange : Exchange before.connection read heard answers pending after.connection
  inbound : before.inbound = read ++ after.inbound
  ended : after.ended = before.ended
  outbound : ∃ bytes : Bytes, after.outbound = before.outbound ++ bytes ∧
    Wire before.connection.outChunkSize answers bytes after.connection.outChunkSize

namespace Converses
variable {first second third : Endpoint} {read further : Bytes} {heard others answers more : List Message}
  {pending : Option Message}

theorem refl (endpoint : Endpoint) : Converses endpoint [] [] [] none endpoint :=
  ⟨.start, rfl, rfl, [], Array.appendList_nil.symm, .nil⟩

theorem trans (before : Converses first read heard answers none second)
    (after : Converses second further others more pending third) :
    Converses first (read ++ further) (heard ++ others) (answers ++ more) pending third := by
  refine ⟨before.exchange.trans after.exchange, ?_, after.ended.trans before.ended,
    Wire.further before.outbound after.outbound⟩
  rw [before.inbound, after.inbound, List.append_assoc]

end Converses

section Acting
variable {endpoint after : Endpoint} {message : Message}

/-- A chunk that is read is taken off the input, and the acknowledgement that is due for it is written. -/
theorem readChunk_takes {result : Option Message} (read : readChunk endpoint = .ok result after) :
    ∃ taken due, ∃ answer : Bytes, endpoint.connection.Takes taken result due after.connection ∧
      endpoint.inbound = taken ++ after.inbound ∧ after.outbound = endpoint.outbound ++ answer ∧
      due.elim (answer = []) (fun due => due.toBytes endpoint.connection.outChunkSize = .ok answer) ∧
      after.ended = endpoint.ended := by
  cases front : endpoint.connection.nextChunk endpoint.inbound with
  | none => rw [readChunk_none front] at read; cases read
  | some chunk =>
    obtain ⟨⟨basic, stream, size⟩, rest⟩ := chunk
    obtain ⟨answer, due, ran⟩ := readChunk_taken front
    obtain ⟨taken, whole, rfl, again⟩ := Connection.nextChunk_taken front
    rw [ran] at read
    cases read
    exact ⟨taken, _, answer, .chunk again, whole, rfl, due, rfl⟩

theorem readChunk_converses {result : Option Message} (isOpen : endpoint.connection.phase ≠ .closed)
    (read : readChunk endpoint = .ok result after) :
    ∃ taken acknowledgements, Converses endpoint taken result.toList acknowledgements result after ∧
      after.connection.phase = endpoint.connection.phase := by
  obtain ⟨taken, due, answer, takes, inbound, outbound, written, ended⟩ := readChunk_takes read
  refine ⟨taken, _, ⟨.chunk .start isOpen takes, inbound, ended, answer, outbound, ?_⟩, takes.phase⟩
  rw [takes.outChunkSize]
  cases due with
  | none =>
    rw [show answer = [] from written]
    exact .nil
  | some message =>
    obtain ⟨total, rfl⟩ := takes.acknowledgement message rfl
    have same : Message.sizeAfter ⟨2, 0, 3, 0, Bytes.be 4 total.toNat⟩ endpoint.connection.outChunkSize =
        endpoint.connection.outChunkSize := Message.sizeAfter_other (show (3 : UInt8) ≠ 1 by decide) _
    exact same ▸ Wire.single written

/-- A message is read whole. If bytes of it are missing, all its chunks that are there have been taken. -/
theorem readMessage_converses (endpoint : Endpoint) (isOpen : endpoint.connection.phase ≠ .closed) :
    (∃ message after read acknowledgements, readMessage endpoint = .ok message after ∧
      Converses endpoint read [message] acknowledgements (some message) after ∧
      after.connection.phase = endpoint.connection.phase) ∨
    ∃ after read acknowledgements, readMessage endpoint = .error after.starvation after ∧
      Converses endpoint read [] acknowledgements none after ∧
      after.connection.phase = endpoint.connection.phase ∧ after.connection.nextChunk after.inbound = none := by
  induction endpoint using chunk_induction with
  | step endpoint ih =>
    cases front : endpoint.connection.nextChunk endpoint.inbound with
    | none =>
      refine .inr ⟨endpoint, [], [], ?_, .refl endpoint, rfl, front⟩
      rw [readMessage_eq, bind_error (readChunk_none front)]
    | some chunk =>
      obtain ⟨⟨basic, stream, size⟩, rest⟩ := chunk
      obtain ⟨outbound, events, ran⟩ := readChunk_some front
      generalize (if stream.isComplete then some stream.message else none) = result at ran
      obtain ⟨taken, acknowledgements, converses, phase⟩ := readChunk_converses isOpen ran
      cases result with
      | some message => exact .inl ⟨message, _, taken, acknowledgements, readMessage_of_some ran, converses, phase⟩
      | none =>
        rw [readMessage_of_none ran]
        rcases ih _ ran (phase ▸ isOpen) with
          ⟨message, after, read, more, finished, further, same⟩ | ⟨after, read, more, stopped, further, same, missing⟩
        · exact .inl ⟨message, after, _, _, finished, converses.trans further, same.trans phase⟩
        · exact .inr ⟨after, _, _, stopped, converses.trans further, same.trans phase, missing⟩

/-- Messages go out up to the first that cannot be cut into chunks. -/
theorem forM_send (messages : List Message) (endpoint : Endpoint) :
    ∃ sent, ∃ bytes : Bytes, sent <+: messages ∧
      Wire endpoint.connection.outChunkSize sent bytes (endpoint.connection.sentAll sent).outChunkSize ∧
      (let after := { endpoint with
        connection := endpoint.connection.sentAll sent, outbound := endpoint.outbound ++ bytes }
      sent = messages ∧ messages.forM send endpoint = .ok () after ∨
        ∃ error, messages.forM send endpoint = .error (.failed error) after) := by
  induction messages generalizing endpoint with
  | nil =>
    refine ⟨[], [], List.prefix_refl _, .nil, .inl ⟨rfl, ?_⟩⟩
    rw [Array.appendList_nil]
    rfl
  | cons message messages ih =>
    have unfolded : (message :: messages).forM send endpoint =
        (send message >>= fun _ => messages.forM send) endpoint := rfl
    rw [unfolded]
    cases written : message.toBytes endpoint.connection.outChunkSize with
    | error error =>
      refine ⟨[], [], List.nil_prefix, .nil, .inr ⟨error, ?_⟩⟩
      rw [bind_error (send_error written), Array.appendList_nil]
      rfl
    | ok first =>
      obtain ⟨sent, bytes, front, wire, ran⟩ := ih { endpoint with
        connection := endpoint.connection.sent message, outbound := endpoint.outbound ++ first }
      rw [bind_ok (send_ok written)]
      refine ⟨message :: sent, first ++ bytes, List.cons_prefix_cons.mpr ⟨rfl, front⟩, ?_, ?_⟩
      · exact .cons written (endpoint.connection.sent_outChunkSize message ▸ wire)
      · rw [← Bytes.append_append]
        rcases ran with ⟨rfl, went⟩ | failed
        · exact .inl ⟨rfl, went⟩
        · exact .inr failed

/-- A message that is handled is refused, and then nothing goes out, or it is answered as far as its answers can be sent. -/
theorem handle_answers (message : Message) (endpoint : Endpoint) :
    (∃ error, endpoint.connection.respond message = .error error ∧
      handle message endpoint = .error (.failed error) endpoint) ∨
    ∃ next replies sent, ∃ bytes : Bytes, endpoint.connection.respond message = .ok (next, replies) ∧ sent <+: replies ∧
      Wire endpoint.connection.outChunkSize sent bytes (next.sentAll sent).outChunkSize ∧
      (let after := { endpoint with connection := next.sentAll sent, outbound := endpoint.outbound ++ bytes }
      sent = replies ∧ handle message endpoint = .ok () after ∨
        ∃ error, handle message endpoint = .error (.failed error) after) := by
  cases response : endpoint.connection.respond message with
  | error error => exact .inl ⟨error, rfl, handle_error response⟩
  | ok answer =>
    obtain ⟨next, replies⟩ := answer
    have size := Connection.respond_outChunkSize response
    obtain ⟨sent, bytes, front, wire, ran⟩ := forM_send replies { endpoint with connection := next }
    rw [show (show Endpoint from { endpoint with connection := next }).connection.outChunkSize = _ from size] at wire
    rw [handle_ok response]
    exact .inr ⟨next, replies, sent, bytes, rfl, front, wire, ran⟩

theorem Converses.handle {read : Bytes} {heard answers replies : List Message} {middle : Endpoint} {next : Connection}
    {bytes : Bytes} (before : Converses endpoint read heard answers (some message) middle)
    (accepted : middle.connection.respond message = .ok (next, replies))
    (wire : Wire middle.connection.outChunkSize replies bytes (next.sentAll replies).outChunkSize) :
    Converses endpoint read heard (answers ++ replies) none { middle with
      connection := next.sentAll replies, outbound := middle.outbound ++ bytes } :=
  ⟨.answer before.exchange accepted, before.inbound, before.ended, Wire.further before.outbound ⟨bytes, rfl, wire⟩⟩

end Acting
end Endpoint
end RtmpRelay
