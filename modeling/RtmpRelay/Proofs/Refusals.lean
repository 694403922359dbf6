import RtmpRelay.Proofs.ReaderSafety

/-! A message that is refused leaves no trace, over a transport that may break at any write. -/

namespace RtmpRelay.Endpoint
open Chunk (BasicHeader)

/-- Nothing stops it but the transport. -/
def Steady (action : Action α) : Prop :=
  ∀ endpoint error after, action endpoint = .error (.failed error) after → ∃ fault, error = .transport fault

section Rules
variable {action : Action α} {next : α → Action β}

theorem Steady.pure (value : α) : Steady (Pure.pure value : Action α) :=
  fun _ _ _ stopped => (nomatch stopped)

theorem Steady.update (change : Connection → Connection) : Steady (update change) :=
  fun _ _ _ stopped => (nomatch stopped)

theorem Steady.bind (first : Steady action) (second : ∀ value, Steady (next value)) : Steady (action >>= next) := by
  intro endpoint error after stopped
  cases ran : action endpoint with
  | error stop middle =>
    rw [bind_error ran] at stopped
    cases stopped
    exact first endpoint error after ran
  | ok value middle =>
    rw [bind_ok ran] at stopped
    exact second value middle error after stopped

end Rules

section Sending
variable {put : Bytes → Action Unit} (delivers : ∀ bytes, Steady (put bytes))

include delivers

/-- Once a message fits, only the transport can keep it from going out. -/
theorem Steady.sendVia {message : Message} (fits : message.Fits) : Steady (sendVia put message) := by
  intro endpoint error after stopped
  obtain ⟨bytes, written⟩ := Message.toBytes_ok fits endpoint.connection.outChunkSize
  rw [Endpoint.sendVia, bind_connection?, bind_ok (lift_ok written endpoint)] at stopped
  refine Steady.bind (delivers bytes) (fun _ => ?_) endpoint error after stopped
  split
  · split
    · apply Steady.update
    · apply Steady.pure
  · apply Steady.pure

theorem Steady.sendAll {messages : List Message} (fit : ∀ message ∈ messages, message.Fits) :
    Steady (messages.forM (Endpoint.sendVia put)) := by
  induction messages with
  | nil => exact .pure ()
  | cons message messages ih =>
    obtain ⟨fits, others⟩ := List.forall_mem_cons.mp fit
    exact .bind (.sendVia delivers fits) fun _ => ih others

end Sending

theorem readMessage_encodable {endpoint after : Endpoint} {message : Message} (reached : Reached endpoint)
    (read : readMessage endpoint = .ok message after) : BasicHeader.Encodable message.chunkStream := by
  obtain ⟨stream, member, -⟩ := readMessage_announced reached read
  have further : Reached after := .message reached (by rw [read]; rfl)
  exact (further.sound.streams _ _ member).encodable

/-- Whatever the transport does, a message that is refused has been neither noted nor answered. It is enough that it
came in on a chunk stream that can be written, as every message does that is read. -/
theorem refused_messages_leave_no_trace :
    (∀ message, handleVia write message = handle message) ∧
    (∀ endpoint message after, Reached endpoint → readMessage endpoint = .ok message after →
      BasicHeader.Encodable message.chunkStream) ∧
    (∀ put : Bytes → Action Unit, (∀ bytes, Steady (put bytes)) →
      ∀ message, BasicHeader.Encodable message.chunkStream →
      ∀ endpoint error after, handleVia put message endpoint = .error (.failed error) after →
        (∀ fault, error ≠ .transport fault) → after = endpoint) := by
  refine ⟨fun _ => rfl, fun endpoint message after => readMessage_encodable, ?_⟩
  intro put delivers message encodable endpoint error after stopped inside
  cases handle_decides put endpoint message with
  | refused _ acted =>
    rw [acted] at stopped
    cases stopped
    rfl
  | accepted accepts _ acted =>
    rw [acted] at stopped
    obtain ⟨fault, broken⟩ := Steady.sendAll delivers (accepts.fits encodable) _ _ _ stopped
    exact absurd broken (inside fault)

/-- A transport that breaks when more than so many bytes have been written. -/
def limited (room : Nat) (bytes : Bytes) : Action Unit := fun endpoint =>
  if endpoint.outbound.size + bytes.length ≤ room then write bytes endpoint
  else .error (.failed (.transport .brokenPipe)) endpoint

theorem limited_steady (room : Nat) (bytes : Bytes) : Steady (limited room bytes) := by
  intro endpoint error after stopped
  unfold limited at stopped
  split at stopped
  · cases stopped
  · cases stopped
    exact ⟨.brokenPipe, rfl⟩

/-- After the handshake, with a command of which there is nothing but null in place of its name. -/
def nameless : Endpoint :=
  { Endpoint.new .standard with
    connection := { Connection.new .standard with phase := .readingHeader }
    inbound := [3, 0, 0, 0, 0, 0, 1, 20, 0, 0, 0, 0, 5] }

theorem nameless_leaves_no_trace : ∃ message next after, Reached nameless ∧ readMessage nameless = .ok message next ∧
    BasicHeader.Encodable message.chunkStream ∧ (∀ bytes, Steady (limited 20 bytes)) ∧
    handleVia (limited 20) message next = .error (.failed (.violation (.commandName .null))) after ∧ after = next := by
  obtain ⟨-, encodable, unchanged⟩ := refused_messages_leave_no_trace
  have reached : Reached nameless := .fresh rfl
  obtain ⟨next, read⟩ : ∃ next, readMessage nameless = .ok ⟨3, 0, 20, 0, [5]⟩ next := ⟨_, rfl⟩
  obtain ⟨after, refused⟩ : ∃ after, handleVia (limited 20) ⟨3, 0, 20, 0, [5]⟩ next =
    .error (.failed (.violation (.commandName .null))) after := ⟨_, rfl⟩
  have named := encodable nameless _ next reached read
  refine ⟨_, next, after, reached, read, named, limited_steady 20, refused, ?_⟩
  exact unchanged (limited 20) (limited_steady 20) _ named next _ after refused nofun

end RtmpRelay.Endpoint
