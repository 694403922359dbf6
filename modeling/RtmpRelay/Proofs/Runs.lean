import RtmpRelay.Proofs.Greeting
import RtmpRelay.Proofs.Requests

/-! What a run of an endpoint can do to its connection. A message that is handled may set the role and the sizes of
the connection, but not its chunk streams; those move with the chunks alone. So a property of a connection holds in
every run if taking a chunk and handling a message keep it, and a property of a chunk stream if a chunk and moving
out the payload do. -/

namespace RtmpRelay

namespace Connection
variable {connection next : Connection} {message : Message} {replies : List Message}

/-- A message leaves the chunk streams alone, and whatever chunk size it sets is a valid one. -/
theorem respond_fields (accepted : connection.respond message = .ok (next, replies)) :
    next.streams = connection.streams ∧
      (next.remoteChunkSize = connection.remoteChunkSize ∨
        minChunkSize ≤ next.remoteChunkSize ∧ next.remoteChunkSize ≤ maxChunkSize) := by
  have turn := respond_turn accepted
  generalize message.request? = request at turn
  cases turn with
  | other valid => exact ⟨rfl, valid⟩
  | connect | createStream | publish | play | close => exact ⟨rfl, .inl rfl⟩

theorem sent_fields (connection : Connection) (message : Message) :
    ∃ chunkSize, connection.sent message = { connection with outChunkSize := chunkSize } := by
  rw [sent]
  split <;> exact ⟨_, rfl⟩

end Connection

namespace Endpoint

section Keeping
variable {holds : Connection → Prop}

theorem keeps_send
    (unsized : ∀ connection chunkSize, holds connection → holds { connection with outChunkSize := chunkSize })
    (message : Message) : Keeps holds (send message) := by
  intro endpoint kept
  cases written : message.toBytes endpoint.connection.outChunkSize with
  | error error => rw [send_error written]; exact kept
  | ok bytes =>
    obtain ⟨chunkSize, fields⟩ := endpoint.connection.sent_fields message
    rw [send_ok written]
    exact fields ▸ unsized _ chunkSize kept

theorem keeps_handle
    (unsized : ∀ connection chunkSize, holds connection → holds { connection with outChunkSize := chunkSize })
    (responds : ∀ connection message next replies, holds connection →
      connection.respond message = .ok (next, replies) → holds next)
    (message : Message) : Keeps holds (handle message) := by
  have keeps_replies (replies : List Message) : Keeps holds (replies.forM send) := by
    induction replies with
    | nil => exact .pure ()
    | cons reply replies ih => exact .bind (keeps_send unsized reply) fun _ => ih
  intro endpoint kept
  cases response : endpoint.connection.respond message with
  | error error => rw [handle_error response]; exact kept
  | ok answer => rw [handle_ok response]; exact keeps_replies answer.2 _ (responds _ _ _ _ kept response)

theorem keeps_readMessage (chunk : Keeps holds readChunk) : Keeps holds readMessage := by
  intro endpoint
  induction endpoint using chunk_induction with
  | step endpoint ih =>
    intro before
    have kept := chunk endpoint before
    cases read : readChunk endpoint with
    | error stop after =>
      rw [readMessage_eq, bind_error read]
      rwa [read] at kept
    | ok result after =>
      rw [read] at kept
      cases result with
      | none => rw [readMessage_of_none read]; exact ih after read kept
      | some message => rw [readMessage_of_some read]; exact kept

theorem keeps_readMedia (chunk : Keeps holds readChunk) (handling : ∀ message, Keeps holds (handle message)) :
    Keeps holds readMedia := by
  refine (keeps_readMessage chunk).bind fun message => ?_
  split
  · exact (Keeps.observe _).bind fun _ => .pure _
  · exact .pure none
  · exact (handling message).bind fun _ => .pure none

theorem keeps_readPacket (chunk : Keeps holds readChunk) (handling : ∀ message, Keeps holds (handle message)) :
    Keeps holds readPacket := by
  have rounds : ∀ rounds : Bytes, Keeps holds (readPacketFrom rounds) := by
    intro rounds
    induction rounds with
    | nil =>
      refine Keeps.connection?.bind fun connection => ?_
      split
      · exact .pure none
      · exact .starve
    | cons round rounds ih =>
      refine Keeps.connection?.bind fun connection => ?_
      split
      · exact .pure none
      · refine (keeps_readMedia chunk handling).bind fun packet => ?_
        split
        · exact .pure _
        · exact ih
  exact Keeps.get.bind fun endpoint => rounds endpoint.inbound

end Keeping

/-- The endpoint with which its owner goes on; there is none once the transport has failed. -/
def onward : EStateM.Result Stop Endpoint α → Option Endpoint
  | .error (.failed (.transport _)) _ => none
  | result => some (left result)

theorem left_of_onward {next : Endpoint} {result : EStateM.Result Stop Endpoint α} (goes : onward result = some next) :
    left result = next := by
  unfold onward at goes
  split at goes
  · cases goes
  · exact Option.some.inj goes

/-- What can become of a new endpoint after its handshake: bytes come in at any time and its owner reads and
handles messages in any order, also after refusals. A chunk is a step of its own, for whoever looks into the
middle of a reading. -/
inductive Reached : Endpoint → Prop where
  | fresh {settings endpoint}
      (past : endpoint.connection = { Connection.new settings with phase := .readingHeader }) : Reached endpoint
  | feed {endpoint} (reached : Reached endpoint) (bytes : Bytes) : Reached (endpoint.feed bytes)
  | close {endpoint} (reached : Reached endpoint) : Reached endpoint.close
  | chunk {endpoint next} (reached : Reached endpoint) (goes : onward (readChunk endpoint) = some next) : Reached next
  | message {endpoint next} (reached : Reached endpoint) (goes : onward (readMessage endpoint) = some next) :
      Reached next
  | handle {endpoint next} (reached : Reached endpoint) (message : Message)
      (goes : onward (handle message endpoint) = some next) : Reached next
  | packet {endpoint next} (reached : Reached endpoint) (goes : onward (readPacket endpoint) = some next) :
      Reached next

/-- The handshake ends in such a start, whatever else its client sent. -/
theorem Reached.handshake {settings : ConnectionSettings} {random : Bytes} {endpoint next : Endpoint}
    (new : endpoint.connection = .new settings) (done : Endpoint.handshake random endpoint = .ok () next) :
    Reached next := by
  have begun : handshakeFrom random 3 .version endpoint = .ok () next := by
    rw [Endpoint.handshake, bind_connection?, new] at done
    exact done
  have past := handshakeFrom_connection (Nat.le_refl 3) begun
  rw [new] at past
  exact .fresh past

/-- What holds at the start, and is kept by taking a chunk and by handling a message, holds in every run. -/
theorem Reached.keeps {holds : Connection → Prop} {endpoint : Endpoint} (reached : Reached endpoint)
    (start : ∀ settings, holds { Connection.new settings with phase := .readingHeader })
    (chunk : Keeps holds readChunk) (handling : ∀ message, Keeps holds (Endpoint.handle message)) :
    holds endpoint.connection := by
  induction reached with
  | fresh past => exact past ▸ start _
  | feed reached bytes ih => exact ih
  | close reached ih => exact ih
  | chunk reached goes ih => exact left_of_onward goes ▸ chunk _ ih
  | message reached goes ih => exact left_of_onward goes ▸ keeps_readMessage chunk _ ih
  | handle reached message goes ih => exact left_of_onward goes ▸ handling message _ ih
  | packet reached goes ih => exact left_of_onward goes ▸ keeps_readPacket chunk handling _ ih

end Endpoint

/-- A property of a chunk stream under its id that holds of new ones, and that chunks and moving out the payload of a
complete message keep. -/
structure ChunkStream.Invariant (holds : UInt32 → ChunkStream → Prop) : Prop where
  new : ∀ id, Chunk.BasicHeader.Encodable id → holds id (.new id)
  chunk : ∀ id stream format chunkSize input after size rest, holds id stream →
    stream.readChunk format chunkSize input = some ((after, size), rest) → holds id after
  taken : ∀ id stream, holds id stream → stream.isComplete = true → holds id stream.taken

def Connection.Every (holds : UInt32 → ChunkStream → Prop) (connection : Connection) : Prop :=
  ∀ id stream, (id, stream) ∈ connection.streams → holds id stream

namespace ChunkStream.Invariant
variable {holds : UInt32 → ChunkStream → Prop}

theorem chunkStream (invariant : Invariant holds) {connection : Connection} (every : connection.Every holds)
    {id : UInt32} (encodable : Chunk.BasicHeader.Encodable id) : holds id (connection.chunkStream id) := by
  rw [Connection.chunkStream]
  cases found : connection.streams.find? id with
  | none => exact invariant.new id encodable
  | some held => exact every id held (Assoc.mem_of_find? found)

theorem readChunk (invariant : Invariant holds) : Endpoint.Keeps (·.Every holds) Endpoint.readChunk := by
  intro endpoint every
  cases front : endpoint.connection.nextChunk endpoint.inbound with
  | none => rw [Endpoint.readChunk_none front]; exact every
  | some chunk =>
    obtain ⟨⟨basic, stream, size⟩, rest⟩ := chunk
    obtain ⟨outbound, events, taken⟩ := Endpoint.readChunk_some front
    obtain ⟨total, window, fields⟩ := Connection.keep_fields endpoint.connection basic.chunkStream stream size
    obtain ⟨encodable, _, _, more, middle, read⟩ := Connection.of_nextChunk front
    have after := invariant.chunk _ _ _ _ _ _ _ _ (invariant.chunkStream every encodable) read
    rw [taken]
    show Connection.Every holds (endpoint.connection.keep basic.chunkStream stream size).1
    rw [fields]
    intro id held member
    rcases Assoc.mem_insert member with same | inside
    · cases same
      split
      next complete => exact invariant.taken _ _ after complete
      next => exact after
    · exact every id held inside

theorem reached (invariant : Invariant holds) {endpoint : Endpoint} (reached : Endpoint.Reached endpoint) :
    endpoint.connection.Every holds := by
  refine reached.keeps ?_ invariant.readChunk (Endpoint.keeps_handle ?_ ?_)
  · intro settings id stream member
    exact absurd member List.not_mem_nil
  · intro connection chunkSize every
    exact every
  · intro connection message next replies every accepted
    rw [Connection.Every, (Connection.respond_fields accepted).1]
    exact every

end ChunkStream.Invariant
end RtmpRelay
