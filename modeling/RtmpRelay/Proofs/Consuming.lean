import RtmpRelay.Proofs.Hearing

/-! What an action takes of the bytes that have come in. No action puts any back, however it ends, and a message that is
read has taken one at least. -/

namespace RtmpRelay.Endpoint

/-- The bytes that are left by a run, and if it came to its end so many more. -/
def leaves (least : Nat) : EStateM.Result Stop Endpoint α → Nat
  | .ok _ after => after.inbound.length + least
  | .error _ after => after.inbound.length

/-- No bytes are put back, and if the action comes to its end it has taken so many at least. -/
def Spends (least : Nat) (action : Action α) : Prop :=
  ∀ endpoint, leaves least (action endpoint) ≤ endpoint.inbound.length

namespace Spends

theorem pure (value : α) : Spends 0 (Pure.pure value : Action α) :=
  fun _ => Nat.le_refl _

theorem get : Spends 0 (MonadState.get : Action Endpoint) :=
  fun _ => Nat.le_refl _

theorem connection? : Spends 0 Endpoint.connection? :=
  fun _ => Nat.le_refl _

theorem update (change : Connection → Connection) : Spends 0 (Endpoint.update change) :=
  fun _ => Nat.le_refl _

theorem write (bytes : Bytes) : Spends 0 (Endpoint.write bytes) :=
  fun _ => Nat.le_refl _

theorem observe (event : Event) : Spends 0 (Endpoint.observe event) :=
  fun _ => Nat.le_refl _

theorem stop (least : Nat) (stop : Stop) : Spends least (throw stop : Action α) :=
  fun _ => Nat.le_refl _

theorem starve (least : Nat) : Spends least (Endpoint.starve : Action α) := by
  intro endpoint
  rw [starve_eq]
  exact Nat.le_refl _

theorem weaken {least less : Nat} {action : Action α} (spends : Spends least action) (fewer : less ≤ least) :
    Spends less action := by
  intro endpoint
  have before := spends endpoint
  cases ran : action endpoint with
  | error stop after => rwa [ran] at before
  | ok value after =>
    rw [ran] at before
    exact Nat.le_trans (Nat.add_le_add_left fewer _) before

theorem first {least : Nat} {action : Action α} {next : α → Action β} (one : Spends least action)
    (others : ∀ value, Spends 0 (next value)) : Spends least (action >>= next) := by
  intro endpoint
  have before := one endpoint
  cases ran : action endpoint with
  | error stop middle =>
    rw [bind_error ran]
    rwa [ran] at before
  | ok value middle =>
    rw [bind_ok ran]
    rw [ran] at before
    have behind := others value middle
    cases further : next value middle with
    | error stop after =>
      rw [further] at behind
      exact Nat.le_trans behind (Nat.le_trans (Nat.le_add_right _ least) before)
    | ok result after =>
      rw [further] at behind
      exact Nat.le_trans (Nat.add_le_add_right behind least) before

theorem bind {least : Nat} {action : Action α} {next : α → Action β} (one : Spends 0 action)
    (others : ∀ value, Spends least (next value)) : Spends least (action >>= next) := by
  intro endpoint
  have before := one endpoint
  cases ran : action endpoint with
  | error stop middle =>
    rw [bind_error ran]
    rwa [ran] at before
  | ok value middle =>
    rw [bind_ok ran]
    rw [ran] at before
    exact Nat.le_trans (others value middle) before

theorem take (count : Nat) : Spends count (receive (Chunk.Reader.take count)) := by
  intro endpoint
  cases front : Chunk.Reader.take count endpoint.inbound with
  | none =>
    rw [receive_none front]
    exact Nat.le_refl _
  | some cut =>
    obtain ⟨taken, rest⟩ := cut
    obtain ⟨length, whole⟩ := Chunk.Reader.of_take front
    rw [receive_some front, whole, List.length_append, length, Nat.add_comm]
    exact Nat.le_refl _

end Spends

theorem send_spends (message : Message) : Spends 0 (send message) := by
  intro endpoint
  cases written : message.toBytes endpoint.connection.outChunkSize with
  | error error => rw [send_error written]; exact Nat.le_refl _
  | ok bytes => rw [send_ok written]; exact Nat.le_refl _

theorem handle_spends (message : Message) : Spends 0 (handle message) := by
  have answers (replies : List Message) : Spends 0 (replies.forM send) := by
    induction replies with
    | nil => exact .pure ()
    | cons reply replies ih => exact .bind (send_spends reply) fun _ => ih
  intro endpoint
  cases response : endpoint.connection.respond message with
  | error error => rw [handle_error response]; exact Nat.le_refl _
  | ok answer => rw [handle_ok response]; exact answers answer.2 _

theorem readChunk_spends : Spends 1 readChunk := by
  intro endpoint
  cases front : endpoint.connection.nextChunk endpoint.inbound with
  | none => rw [readChunk_none front]; exact Nat.le_refl _
  | some chunk =>
    obtain ⟨_, _, read⟩ := readChunk_some front
    have shrinks := readChunk_shrinks read
    rw [read]
    exact shrinks

theorem readMessage_spends : Spends 1 readMessage := by
  have rounds (bytes : Bytes) : Spends 1 (readMessageFrom bytes) := by
    induction bytes with
    | nil => exact .starve 1
    | cons round rounds ih =>
      refine .first readChunk_spends fun result => ?_
      cases result with
      | some message => exact .pure message
      | none => exact ih.weaken (Nat.zero_le 1)
  exact .bind .get fun endpoint => rounds endpoint.inbound

theorem readMedia_spends : Spends 1 readMedia := by
  refine .first readMessage_spends fun message => ?_
  cases media message with
  | packet packet => exact .bind (.observe _) fun _ => .pure _
  | nameless => exact .pure none
  | other => exact .bind (handle_spends message) fun _ => .pure _

theorem readHeader_spends : Spends 0 readHeader := by
  have rounds (bytes : Bytes) : Spends 0 (readHeaderFrom bytes) := by
    induction bytes with
    | nil =>
      refine .bind .connection? fun connection => ?_
      split
      · exact .starve 0
      · exact .pure ()
    | cons round rounds ih =>
      refine .bind .connection? fun connection => ?_
      split
      · exact .bind (readMessage_spends.weaken (Nat.zero_le 1)) fun message => .bind (handle_spends message) fun _ => ih
      · exact .pure ()
  refine .bind .connection? fun connection => ?_
  dsimp only
  split
  · exact .bind (.stop 0 _) fun _ => .bind .get fun endpoint => rounds endpoint.inbound
  · exact .bind .get fun endpoint => rounds endpoint.inbound

theorem handshake_spends (random : Bytes) : Spends 0 (handshake random) := by
  have stages (count : Nat) (stage : Handshake.Stage) : Spends 0 (handshakeFrom random count stage) := by
    induction count generalizing stage with
    | zero => exact .pure ()
    | succ count ih =>
      refine .bind (.update _) fun _ => .bind ((Spends.take _).weaken (Nat.zero_le _)) fun received => ?_
      cases Handshake.answer random stage received with
      | error error => exact .bind (.update _) fun _ => .stop 0 _
      | ok sent =>
        obtain ⟨bytes, next⟩ := sent
        refine .bind (.write bytes) fun _ => ?_
        cases next with
        | some stage => exact ih stage
        | none => exact .update _
  refine .bind .connection? fun connection => ?_
  split
  · exact stages 3 _
  · exact .stop 0 _

theorem waitInbound_spends : Spends 0 waitInbound := by
  refine .bind .get fun endpoint => ?_
  split
  · exact .pure true
  · split
    · exact .pure false
    · exact .stop 0 _

end RtmpRelay.Endpoint
