import RtmpRelay.Connection.Endpoint
import RtmpRelay.Proofs.MessageHeader

/-! How the actions of an endpoint run. Sending and taking one chunk are each described once, by what they leave
behind, and reading a message is taking chunks until one completes it: the rounds that bound the reading never
show. `Keeps` is the rule for properties of the connection that an action keeps however it ends. -/

namespace RtmpRelay

namespace Connection
open Chunk (BasicHeader Header Reader)

theorem count_fields (connection : Connection) (bytes : Nat) :
    ∃ total window, (connection.count bytes).1 =
      { connection with bytesReceived := total, windowReceived := window } := by
  unfold count
  dsimp only
  split <;> exact ⟨_, _, rfl⟩

theorem count_acknowledgement {connection : Connection} {bytes : Nat} {message : Message}
    (due : (connection.count bytes).2 = some message) : ∃ total, message = .acknowledgement total := by
  unfold count at due
  dsimp only at due
  split at due
  · cases due; exact ⟨_, rfl⟩
  · cases due

theorem keep_fields (connection : Connection) (id : UInt32) (stream : ChunkStream) (size : Nat) :
    ∃ total window, (connection.keep id stream size).1 =
      { connection with
        streams := connection.streams.insert id (if stream.isComplete then stream.taken else stream)
        bytesReceived := total
        windowReceived := window } :=
  count_fields _ size

theorem nextChunk_append {connection : Connection} {id : UInt32} {header : Header} {basic piece : Bytes}
    (named : BasicHeader.toBytes ⟨header.format, id⟩ = .ok basic)
    (fits : header.Fits (connection.chunkStream id).isExtended)
    (size : piece.length = min (((connection.chunkStream id).opened header).length -
      ((connection.chunkStream id).opened header).received) connection.remoteChunkSize.toNat)
    (rest : Bytes) :
    connection.nextChunk (basic ++ (header.toBytes ++ (piece ++ rest))) =
      some ((⟨header.format, id⟩, ((connection.chunkStream id).opened header).filled piece,
        basic.length + (header.toBytes.length + piece.length)), rest) := by
  rw [nextChunk, Reader.bind_some (BasicHeader.read_toBytes named _)]
  dsimp only
  rw [Reader.bind_some (ChunkStream.readChunk_append fits size rest)]
  rfl

/-- The chunk in front of an input is one for an encodable chunk stream, and its bytes are counted. -/
theorem of_nextChunk {connection : Connection} {basic : BasicHeader} {result : ChunkStream} {size : Nat}
    {input rest : Bytes} (front : connection.nextChunk input = some ((basic, result, size), rest)) :
    BasicHeader.Encodable basic.chunkStream ∧ 0 < size ∧ input.length = size + rest.length ∧
      ∃ more middle, (connection.chunkStream basic.chunkStream).readChunk basic.format
        connection.remoteChunkSize.toNat middle = some ((result, more), rest) := by
  obtain ⟨⟨named, taken⟩, middle, first, second⟩ := Reader.of_bind front
  obtain ⟨⟨stream, more⟩, _, third, last⟩ := Reader.of_bind second
  cases last
  obtain ⟨encodable, positive, counted⟩ := BasicHeader.of_read first
  obtain ⟨header, piece, _, _, _, bytes, _, length⟩ := ChunkStream.of_readChunk third
  refine ⟨encodable, by omega, ?_, more, middle, third⟩
  simp only [counted, bytes, length, List.length_append]
  omega

/-- The connection once a message has gone out. -/
def sent (connection : Connection) (message : Message) : Connection :=
  if message.typeId = 1 ∧ message.payload.length = 4 then
    { connection with outChunkSize := UInt32.ofNat (Bytes.beValue message.payload) }
  else connection

end Connection

namespace Endpoint

section Running
variable {endpoint after : Endpoint} {stop : Stop}

theorem bind_ok {action : Action α} {next : α → Action β} {value : α}
    (ran : action endpoint = .ok value after) : (action >>= next) endpoint = next value after := by
  simp only [bind, EStateM.bind, ran]

theorem bind_error {action : Action α} {next : α → Action β}
    (stopped : action endpoint = .error stop after) : (action >>= next) endpoint = .error stop after := by
  simp only [bind, EStateM.bind, stopped]

theorem bind_connection? {next : Connection → Action β} :
    (connection? >>= next) endpoint = next endpoint.connection endpoint :=
  rfl

theorem tryCatch_ok {action : Action α} {refused : Stop → Action α} {value : α}
    (ran : action endpoint = .ok value after) : tryCatch action refused endpoint = .ok value after := by
  simp only [tryCatch, tryCatchThe, MonadExceptOf.tryCatch, EStateM.tryCatch, ran]

theorem tryCatch_error {action : Action α} {refused : Stop → Action α}
    (stopped : action endpoint = .error stop after) : tryCatch action refused endpoint = refused stop after := by
  simp only [tryCatch, tryCatchThe, MonadExceptOf.tryCatch, EStateM.tryCatch, stopped]
  rfl

/-- Why an action stops that needs more bytes. -/
def starvation (endpoint : Endpoint) : Stop :=
  if endpoint.ended then .failed (.transport .unexpectedEnd) else .waiting

theorem starve_eq (endpoint : Endpoint) : (starve : Action α) endpoint = .error endpoint.starvation endpoint := by
  have unfolded : (starve : Action α) endpoint =
      (if endpoint.ended then fail (.transport .unexpectedEnd) else throw .waiting : Action α) endpoint := rfl
  rw [unfolded, starvation]
  split <;> rfl

theorem receive_some {reader : Chunk.Reader α} {value : α} {rest : Bytes}
    (front : reader endpoint.inbound = some (value, rest)) :
    receive reader endpoint = .ok value { endpoint with inbound := rest } := by
  simp only [receive, front]

theorem receive_none {reader : Chunk.Reader α} (missing : reader endpoint.inbound = none) :
    receive reader endpoint = .error endpoint.starvation endpoint := by
  simp only [receive, missing, starve_eq]

theorem lift_ok {result : Except Error α} {value : α} (success : result = .ok value) (endpoint : Endpoint) :
    lift result endpoint = .ok value endpoint := by
  rw [success]; rfl

theorem lift_error {result : Except Error α} {error : Error} (failure : result = .error error) (endpoint : Endpoint) :
    lift result endpoint = .error (.failed error) endpoint := by
  rw [failure]; rfl

private theorem run_of_four (payload : Bytes) (action : Action Unit) (endpoint : Endpoint) :
    (match payload with | [_, _, _, _] => action | _ => pure ()) endpoint =
      if payload.length = 4 then action endpoint else .ok () endpoint := by
  match payload with
  | [] | [_] | [_, _] | [_, _, _] | [_, _, _, _] => rfl
  | _ :: _ :: _ :: _ :: _ :: _ => rfl

/-- What is left of a sending once the bytes have been written. -/
theorem sent_run (message : Message) (endpoint : Endpoint) :
    (if message.typeId = 1 then
      match message.payload with
      | [_, _, _, _] =>
        let size := UInt32.ofNat (Bytes.beValue message.payload)
        update fun connection => { connection with outChunkSize := size }
      | _ => pure ()
    else pure () : Action Unit) endpoint =
      .ok () { endpoint with connection := endpoint.connection.sent message } := by
  by_cases type : message.typeId = 1
  · rw [if_pos type]
    refine (run_of_four message.payload _ _).trans ?_
    by_cases four : message.payload.length = 4
    · rw [if_pos four, Connection.sent, if_pos ⟨type, four⟩]
      rfl
    · rw [if_neg four, Connection.sent, if_neg fun both => four both.2]
  · rw [if_neg type, Connection.sent, if_neg fun both => type both.1]
    rfl

theorem send_ok {message : Message} {bytes : Bytes}
    (written : message.toBytes endpoint.connection.outChunkSize = .ok bytes) :
    send message endpoint = .ok () { endpoint with
      connection := endpoint.connection.sent message
      outbound := endpoint.outbound ++ bytes } := by
  rw [send, sendVia, bind_connection?, bind_ok (lift_ok written endpoint), bind_ok (show write bytes endpoint = .ok () _ from rfl)]
  exact sent_run message { endpoint with outbound := endpoint.outbound ++ bytes }

theorem send_error {message : Message} {error : Error}
    (refused : message.toBytes endpoint.connection.outChunkSize = .error error) :
    send message endpoint = .error (.failed error) endpoint := by
  rw [send, sendVia, bind_connection?, bind_error (lift_error refused endpoint)]

theorem send_acknowledgement (endpoint : Endpoint) (total : UInt32) :
    ∃ bytes, (Message.acknowledgement total).toBytes endpoint.connection.outChunkSize = .ok bytes ∧
      send (.acknowledgement total) endpoint = .ok () { endpoint with outbound := endpoint.outbound ++ bytes } := by
  have fits : (Message.acknowledgement total).Fits :=
    Message.control_fits .acknowledgement (by simp [Message.word, maxMessageLength])
  obtain ⟨bytes, written⟩ := Message.toBytes_ok fits endpoint.connection.outChunkSize
  exact ⟨bytes, written, send_ok written⟩

theorem readChunk_none (missing : endpoint.connection.nextChunk endpoint.inbound = none) :
    readChunk endpoint = .error endpoint.starvation endpoint := by
  rw [readChunk, bind_connection?, bind_error (receive_none missing)]

/-- A chunk that is there is taken and kept; what goes out meanwhile is the acknowledgement that is due, if any. -/
theorem readChunk_taken {basic : Chunk.BasicHeader} {stream : ChunkStream} {size : Nat} {rest : Bytes}
    (front : endpoint.connection.nextChunk endpoint.inbound = some ((basic, stream, size), rest)) :
    ∃ answer : Bytes,
      (endpoint.connection.keep basic.chunkStream stream size).2.elim (answer = [])
        (fun due => due.toBytes endpoint.connection.outChunkSize = .ok answer) ∧
      readChunk endpoint = .ok (if stream.isComplete then some stream.message else none)
        { endpoint with
          connection := (endpoint.connection.keep basic.chunkStream stream size).1
          inbound := rest
          outbound := endpoint.outbound ++ answer
          events := endpoint.events.push (.chunk basic.chunkStream basic.format size) ++
            (if stream.isComplete then #[.message stream.message] else #[]) } := by
  obtain ⟨total, window, fields⟩ := endpoint.connection.keep_fields basic.chunkStream stream size
  have sameSize : (endpoint.connection.keep basic.chunkStream stream size).1.outChunkSize =
      endpoint.connection.outChunkSize := by rw [fields]
  obtain ⟨connection, acknowledgement, kept⟩ :
      ∃ connection acknowledgement, endpoint.connection.keep basic.chunkStream stream size = (connection, acknowledgement) :=
    ⟨_, _, rfl⟩
  rw [kept] at sameSize
  let taken : Endpoint := { endpoint with
    connection, inbound := rest, events := endpoint.events.push (.chunk basic.chunkStream basic.format size) }
  have acknowledged : ∃ answer : Bytes,
      acknowledgement.elim (answer = []) (fun due => due.toBytes endpoint.connection.outChunkSize = .ok answer) ∧
      acknowledgement.forM send taken = .ok () { taken with outbound := endpoint.outbound ++ answer } := by
    cases acknowledgement with
    | none => exact ⟨[], rfl, congrArg (EStateM.Result.ok ()) (by simp [taken])⟩
    | some message =>
      obtain ⟨total, rfl⟩ := Connection.count_acknowledgement (congrArg Prod.snd kept)
      obtain ⟨bytes, written, sent⟩ := send_acknowledgement taken total
      rw [show taken.connection.outChunkSize = _ from sameSize] at written
      exact ⟨bytes, written, sent⟩
  obtain ⟨answer, due, acknowledged⟩ := acknowledged
  have ran : readChunk endpoint = (if stream.isComplete then do
      observe (.message stream.message)
      return some stream.message
    else return none : Action (Option Message)) { taken with outbound := endpoint.outbound ++ answer } := by
    rw [readChunk, bind_connection?,
      bind_ok (receive_some front)]
    dsimp only
    rw [kept]
    exact bind_ok acknowledged
  rw [ran, kept]
  refine ⟨answer, due, ?_⟩
  cases stream.isComplete <;> rfl

theorem readChunk_some {basic : Chunk.BasicHeader} {stream : ChunkStream} {size : Nat} {rest : Bytes}
    (front : endpoint.connection.nextChunk endpoint.inbound = some ((basic, stream, size), rest)) :
    ∃ outbound events, readChunk endpoint = .ok (if stream.isComplete then some stream.message else none)
      { endpoint with
        connection := (endpoint.connection.keep basic.chunkStream stream size).1
        inbound := rest, outbound, events } := by
  obtain ⟨answer, _, taken⟩ := readChunk_taken front
  exact ⟨_, _, taken⟩

theorem readChunk_shrinks {result : Option Message} (read : readChunk endpoint = .ok result after) :
    after.inbound.length < endpoint.inbound.length := by
  cases front : endpoint.connection.nextChunk endpoint.inbound with
  | none => rw [readChunk_none front] at read; cases read
  | some chunk =>
    obtain ⟨⟨basic, stream, size⟩, rest⟩ := chunk
    obtain ⟨outbound, events, ran⟩ := readChunk_some front
    obtain ⟨_, positive, counted, _⟩ := Connection.of_nextChunk front
    rw [ran] at read
    cases read
    show rest.length < endpoint.inbound.length
    omega

private theorem readChunk_nil (empty : endpoint.inbound = []) :
    readChunk endpoint = .error endpoint.starvation endpoint :=
  readChunk_none (by rw [empty]; rfl)

private theorem readMessageFrom_nil (empty : endpoint.inbound = []) (rounds : Bytes) :
    readMessageFrom rounds endpoint = .error endpoint.starvation endpoint := by
  cases rounds with
  | nil => exact starve_eq endpoint
  | cons round rounds => exact bind_error (readChunk_nil empty)

/-- Rounds beyond the bytes that are there make no difference, for each takes a byte or stops. -/
private theorem readMessageFrom_enough (rounds : Bytes) :
    ∀ (others : Bytes) (endpoint : Endpoint), endpoint.inbound.length ≤ rounds.length →
      endpoint.inbound.length ≤ others.length →
      readMessageFrom rounds endpoint = readMessageFrom others endpoint := by
  induction rounds with
  | nil =>
    intro others endpoint enough _
    have empty : endpoint.inbound = [] := List.eq_nil_of_length_eq_zero (by simpa using enough)
    rw [readMessageFrom_nil empty, readMessageFrom_nil empty]
  | cons round rounds ih =>
    intro others endpoint enough also
    cases others with
    | nil =>
      have empty : endpoint.inbound = [] := List.eq_nil_of_length_eq_zero (by simpa using also)
      rw [readMessageFrom_nil empty, readMessageFrom_nil empty]
    | cons other others =>
      rw [readMessageFrom, readMessageFrom]
      cases read : readChunk endpoint with
      | error stop after => rw [bind_error read, bind_error read]
      | ok result after =>
        have smaller := readChunk_shrinks read
        simp only [List.length_cons] at enough also
        rw [bind_ok read, bind_ok read]
        cases result with
        | some message => rfl
        | none => exact ih others after (by omega) (by omega)

theorem readMessage_eq (endpoint : Endpoint) :
    readMessage endpoint = (do
      match ← readChunk with
      | some message => return message
      | none => readMessage : Action Message) endpoint := by
  have start : readMessage endpoint = readMessageFrom endpoint.inbound endpoint := rfl
  rw [start]
  cases bytes : endpoint.inbound with
  | nil => rw [readMessageFrom_nil bytes, bind_error (readChunk_nil bytes)]
  | cons byte rest =>
    rw [readMessageFrom]
    cases read : readChunk endpoint with
    | error stop after => rw [bind_error read, bind_error read]
    | ok result after =>
      have smaller := readChunk_shrinks read
      simp only [bytes, List.length_cons] at smaller
      rw [bind_ok read, bind_ok read]
      cases result with
      | some message => rfl
      | none => exact readMessageFrom_enough rest after.inbound after (by omega) (Nat.le_refl _)

theorem readMessage_of_some {message : Message} (read : readChunk endpoint = .ok (some message) after) :
    readMessage endpoint = .ok message after := by
  rw [readMessage_eq, bind_ok read]
  rfl

theorem readMessage_of_none (read : readChunk endpoint = .ok none after) :
    readMessage endpoint = readMessage after := by
  rw [readMessage_eq, bind_ok read]

theorem readMessage_nil (empty : endpoint.inbound = []) :
    readMessage endpoint = .error endpoint.starvation endpoint := by
  rw [readMessage_eq, bind_error (readChunk_nil empty)]

/-- Chunk by chunk an endpoint runs out of bytes, so what holds of it may rest on what holds after a chunk that
completes no message. -/
theorem chunk_induction {motive : Endpoint → Prop}
    (step : ∀ endpoint, (∀ after, readChunk endpoint = .ok none after → motive after) → motive endpoint)
    (endpoint : Endpoint) : motive endpoint :=
  step endpoint fun after _read => chunk_induction step after
termination_by endpoint.inbound.length
decreasing_by exact readChunk_shrinks _read

end Running

/-- The endpoint that a run leaves, however it ends. -/
def left : EStateM.Result Stop Endpoint α → Endpoint
  | .ok _ endpoint | .error _ endpoint => endpoint

def Keeps (holds : Connection → Prop) (action : Action α) : Prop :=
  ∀ endpoint, holds endpoint.connection → holds (left (action endpoint)).connection

namespace Keeps
variable {holds : Connection → Prop}

theorem pure (value : α) : Keeps holds (Pure.pure value : Action α) :=
  fun _ kept => kept

theorem get : Keeps holds (MonadState.get : Action Endpoint) :=
  fun _ kept => kept

theorem connection? : Keeps holds Endpoint.connection? :=
  fun _ kept => kept

theorem observe (event : Event) : Keeps holds (Endpoint.observe event) :=
  fun _ kept => kept

theorem starve : Keeps holds (Endpoint.starve : Action α) := by
  intro endpoint kept
  rw [starve_eq]
  exact kept

theorem bind {action : Action α} {next : α → Action β} (first : Keeps holds action)
    (second : ∀ value, Keeps holds (next value)) : Keeps holds (action >>= next) := by
  intro endpoint kept
  have middle := first endpoint kept
  cases ran : action endpoint with
  | error stop after =>
    rw [bind_error ran]
    rwa [ran] at middle
  | ok value after =>
    rw [bind_ok ran]
    rw [ran] at middle
    exact second value after middle

theorem update {change : Connection → Connection} (changes : ∀ connection, holds connection → holds (change connection)) :
    Keeps holds (Endpoint.update change) :=
  fun _ kept => changes _ kept

theorem write (bytes : Bytes) : Keeps holds (Endpoint.write bytes) :=
  fun _ kept => kept

theorem fail (error : Error) : Keeps holds (Endpoint.fail error : Action α) :=
  fun _ kept => kept

theorem receive (reader : Chunk.Reader α) : Keeps holds (Endpoint.receive reader) := by
  intro endpoint kept
  cases front : reader endpoint.inbound with
  | none => rw [receive_none front]; exact kept
  | some cut => rw [receive_some front]; exact kept

end Keeps
end Endpoint
end RtmpRelay
