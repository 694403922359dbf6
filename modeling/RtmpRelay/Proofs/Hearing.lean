import RtmpRelay.Proofs.Runs

/-! What an endpoint has heard about its role. Every message that comes in is an event, so the requests of a client can
be counted afterwards. Reading leaves the role alone and handling a message turns it as the message asks, in any phase.
Two states of an endpoint are compared by `Abides`: if no further request names a role, the role is the same in both or
its stream has been closed in between. -/

namespace RtmpRelay

/-- Whether it says something about the role of the connection. -/
def Request.negotiates : Request → Bool
  | .connect | .publish | .play => true
  | .createStream | .close => false

def Event.message? : Event → Option Message
  | .message received => some received
  | _ => none

/-- Whether the header has been read: the client has said what it is for, or has given up. -/
def Phase.isSettled : Phase → Bool
  | .handshaking _ | .readingHeader => false
  | .publishing | .playing | .closed => true

namespace Connection

/-- Nothing was said about the role. -/
structure Unturned (before after : Connection) : Prop where
  phase : after.phase = before.phase
  isPublish : after.isPublish = before.isPublish
  streamName : after.streamName = before.streamName
  info : after.info = before.info

theorem Unturned.refl (connection : Connection) : Unturned connection connection :=
  ⟨rfl, rfl, rfl, rfl⟩

theorem Unturned.trans {first second third : Connection} (before : Unturned first second)
    (after : Unturned second third) : Unturned first third :=
  ⟨after.phase.trans before.phase, after.isPublish.trans before.isPublish, after.streamName.trans before.streamName,
    after.info.trans before.info⟩

theorem Unturned.sent (connection : Connection) (message : Message) : Unturned connection (connection.sent message) := by
  obtain ⟨_, fields⟩ := connection.sent_fields message
  rw [fields]
  exact ⟨rfl, rfl, rfl, rfl⟩

/-- The role is the same, or its stream has been closed. -/
structure Stands (before after : Connection) : Prop where
  phase : after.phase = before.phase ∨ after.phase = .closed
  isPublish : after.isPublish = before.isPublish
  streamKey : after.streamKey = before.streamKey

theorem Unturned.stands {before after : Connection} (unturned : Unturned before after) : Stands before after where
  phase := .inl unturned.phase
  isPublish := unturned.isPublish
  streamKey := by rw [streamKey, streamKey, unturned.info, unturned.streamName]

theorem Stands.trans {first second third : Connection} (before : Stands first second) (after : Stands second third) :
    Stands first third where
  phase := by
    rcases after.phase with same | closed
    · rw [same]
      exact before.phase
    · exact .inr closed
  isPublish := after.isPublish.trans before.isPublish
  streamKey := after.streamKey.trans before.streamKey

/-- A connection publishes exactly if it says so. -/
def Consistent (connection : Connection) : Prop :=
  connection.isPublish = true ↔ connection.phase = .publishing

theorem Unturned.consistent {before after : Connection} (unturned : Unturned before after)
    (consistent : before.Consistent) : after.Consistent := by
  rw [Consistent, unturned.isPublish, unturned.phase]
  exact consistent

namespace Turn
variable {connection next : Connection} {request : Option Request}

theorem settled (turn : connection.Turn request next) (settled : connection.phase.isSettled = true) :
    next.phase.isSettled = true := by
  cases turn with
  | connect | createStream | other => exact settled
  | publish | play | close => rfl

theorem past (turn : connection.Turn request next) (past : ∀ stage, connection.phase ≠ .handshaking stage) :
    ∀ stage, next.phase ≠ .handshaking stage := by
  cases turn with
  | connect | createStream | other => exact past
  | publish | play | close => exact fun _ => Phase.noConfusion

theorem stands (turn : connection.Turn request next) (idle : ∀ asked, request = some asked → asked.negotiates = false) :
    Stands connection next := by
  cases turn with
  | connect | publish | play => exact absurd (idle _ rfl) Bool.noConfusion
  | createStream => exact (Unturned.refl connection).stands
  | close => exact ⟨.inr rfl, rfl, rfl⟩
  | other => exact Unturned.stands ⟨rfl, rfl, rfl, rfl⟩

theorem consistent (turn : connection.Turn request next) (consistent : connection.Consistent)
    (reading : connection.phase = .readingHeader) : next.Consistent := by
  have silent : connection.isPublish = false := by
    rw [Bool.eq_false_iff]
    intro publishes
    rw [consistent.mp publishes] at reading
    cases reading
  cases turn with
  | connect | createStream | other => exact consistent
  | publish => exact ⟨fun _ => rfl, fun _ => rfl⟩
  | play | close => exact ⟨fun publishes => absurd publishes (silent ▸ Bool.false_ne_true), fun same => nomatch same⟩

end Turn
end Connection

namespace Endpoint
open Connection (Unturned Stands Turn)

/-- The messages that have come in. -/
def messages (endpoint : Endpoint) : List Message :=
  endpoint.events.toList.filterMap Event.message?

/-- What they said about the role of the connection. -/
def negotiations (endpoint : Endpoint) : List Request :=
  (endpoint.messages.filterMap Message.request?).filter Request.negotiates

/-- Some messages have come in, and none of them has been handled. -/
structure Hears (before : Endpoint) (heard : List Message) (after : Endpoint) : Prop where
  unturned : Unturned before.connection after.connection
  messages : after.messages = before.messages ++ heard

theorem Hears.refl (endpoint : Endpoint) : Hears endpoint [] endpoint :=
  ⟨.refl _, (List.append_nil _).symm⟩

theorem Hears.trans {first second third : Endpoint} {heard further : List Message} (before : Hears first heard second)
    (after : Hears second further third) : Hears first (heard ++ further) third :=
  ⟨before.unturned.trans after.unturned, by rw [after.messages, before.messages, List.append_assoc]⟩

theorem send_hears (message : Message) (endpoint : Endpoint) :
    Hears endpoint [] (left (send message endpoint)) := by
  cases written : message.toBytes endpoint.connection.outChunkSize with
  | error error =>
    rw [send_error written]
    exact .refl endpoint
  | ok bytes =>
    rw [send_ok written]
    exact ⟨.sent _ message, (List.append_nil _).symm⟩

theorem forM_send_hears (replies : List Message) (endpoint : Endpoint) :
    Hears endpoint [] (left (replies.forM send endpoint)) := by
  induction replies generalizing endpoint with
  | nil => exact .refl endpoint
  | cons reply replies ih =>
    have first := send_hears reply endpoint
    have unfolded : (reply :: replies).forM send endpoint = (send reply >>= fun _ => replies.forM send) endpoint := rfl
    rw [unfolded]
    cases ran : send reply endpoint with
    | error stop after =>
      rw [ran] at first
      rw [bind_error ran]
      exact first
    | ok value after =>
      rw [ran] at first
      rw [bind_ok ran]
      exact first.trans (ih after)

theorem readChunk_hears (endpoint : Endpoint) :
    (∃ stop after, readChunk endpoint = .error stop after ∧ Hears endpoint [] after) ∨
      ∃ result after, readChunk endpoint = .ok result after ∧ Hears endpoint result.toList after := by
  cases front : endpoint.connection.nextChunk endpoint.inbound with
  | none => exact .inl ⟨_, _, readChunk_none front, .refl endpoint⟩
  | some chunk =>
    obtain ⟨⟨basic, stream, size⟩, rest⟩ := chunk
    obtain ⟨answer, _, taken⟩ := readChunk_taken front
    obtain ⟨total, window, fields⟩ := Connection.keep_fields endpoint.connection basic.chunkStream stream size
    refine .inr ⟨_, _, taken, ?_, ?_⟩
    · rw [fields]
      exact ⟨rfl, rfl, rfl, rfl⟩
    · rw [messages, messages, Array.toList_append, Array.toList_push, List.filterMap_append, List.filterMap_append]
      cases stream.isComplete <;> simp [Event.message?]

/-- A message that is read is the only one that has come in. -/
theorem readMessage_hears (endpoint : Endpoint) :
    (∃ stop after, readMessage endpoint = .error stop after ∧ Hears endpoint [] after) ∨
      ∃ message after, readMessage endpoint = .ok message after ∧ Hears endpoint [message] after := by
  induction endpoint using chunk_induction with
  | step endpoint ih =>
    rcases readChunk_hears endpoint with ⟨stop, after, read, heard⟩ | ⟨result, after, read, heard⟩
    · refine .inl ⟨stop, after, ?_, heard⟩
      rw [readMessage_eq, bind_error read]
    · cases result with
      | some message => exact .inr ⟨message, after, readMessage_of_some read, heard⟩
      | none =>
        rw [readMessage_of_none read]
        rcases ih after read with ⟨stop, last, ran, further⟩ | ⟨message, last, ran, further⟩
        · exact .inl ⟨stop, last, ran, heard.trans further⟩
        · exact .inr ⟨message, last, ran, heard.trans further⟩

theorem Hears.of_readMessage {endpoint after : Endpoint} {message : Message}
    (read : readMessage endpoint = .ok message after) : Hears endpoint [message] after := by
  rcases readMessage_hears endpoint with ⟨_, _, failed, _⟩ | ⟨_, _, found, heard⟩
  · cases read.symm.trans failed
  · cases read.symm.trans found
    exact heard

/-- Handling a message turns the connection as it asks, or not at all if it is refused. -/
theorem handle_turns (message : Message) (endpoint : Endpoint) :
    ∃ next, (endpoint.connection.Turn message.request? next ∨ next = endpoint.connection) ∧
      Hears { endpoint with connection := next } [] (left (handle message endpoint)) := by
  cases response : endpoint.connection.respond message with
  | error error =>
    rw [handle_error response]
    exact ⟨_, .inr rfl, .refl endpoint⟩
  | ok answer =>
    obtain ⟨next, replies⟩ := answer
    rw [handle_ok response]
    exact ⟨next, .inl (Connection.respond_turn response), forM_send_hears replies _⟩

/-- From one state to a later one: what was said is remembered, a header that has been read stays read, and if nothing
more was said about it, the role stands. -/
structure Abides (before after : Endpoint) : Prop where
  grows : before.negotiations <+: after.negotiations
  settled : before.connection.phase.isSettled = true → after.connection.phase.isSettled = true
  stands : after.negotiations = before.negotiations → Stands before.connection after.connection

theorem Abides.refl (endpoint : Endpoint) : Abides endpoint endpoint :=
  ⟨List.prefix_refl _, id, fun _ => (Unturned.refl _).stands⟩

/-- If nothing more was said in the end, nothing more was said in between. -/
theorem Abides.unasked {first second third : Endpoint} (before : Abides first second) (after : Abides second third)
    (same : third.negotiations = first.negotiations) : second.negotiations = first.negotiations := by
  refine (before.grows.eq_of_length ?_).symm
  have lower := before.grows.length_le
  have upper := after.grows.length_le
  rw [same] at upper
  omega

theorem Abides.trans {first second third : Endpoint} (before : Abides first second) (after : Abides second third) :
    Abides first third := by
  refine ⟨before.grows.trans after.grows, after.settled ∘ before.settled, fun same => ?_⟩
  have middle := before.unasked after same
  exact (before.stands middle).trans (after.stands (same.trans middle.symm))

theorem Hears.negotiations {before after : Endpoint} {heard : List Message} (hears : Hears before heard after) :
    after.negotiations =
      before.negotiations ++ (heard.filterMap Message.request?).filter Request.negotiates := by
  rw [Endpoint.negotiations, hears.messages, List.filterMap_append, List.filter_append, Endpoint.negotiations]

theorem Hears.abides {before after : Endpoint} {heard : List Message} (hears : Hears before heard after) :
    Abides before after := by
  refine ⟨?_, ?_, fun _ => hears.unturned.stands⟩
  · rw [hears.negotiations]
    exact List.prefix_append _ _
  · intro settled
    rw [hears.unturned.phase]
    exact settled

theorem handle_abides {before read : Endpoint} {message : Message} (hears : Hears before [message] read) :
    Abides before (left (handle message read)) := by
  obtain ⟨next, turned, handled⟩ := handle_turns message read
  have asked : (left (handle message read)).negotiations =
      before.negotiations ++ ([message].filterMap Message.request?).filter Request.negotiates := by
    rw [handled.negotiations, List.filterMap_nil, List.filter_nil, List.append_nil]
    exact hears.negotiations
  refine ⟨asked ▸ List.prefix_append _ _, ?_, ?_⟩
  · intro settled
    rw [handled.unturned.phase]
    rcases turned with turn | rfl
    · exact turn.settled (hears.unturned.phase.symm ▸ settled)
    · exact hears.unturned.phase.symm ▸ settled
  · intro same
    have idle : ∀ request, message.request? = some request → request.negotiates = false := by
      intro request found
      rw [asked, List.append_right_eq_self] at same
      simpa [found] using same
    have stands : Stands read.connection next := by
      rcases turned with turn | rfl
      · exact turn.stands idle
      · exact (Unturned.refl _).stands
    exact (hears.unturned.stands.trans stands).trans handled.unturned.stands

theorem left_bind {action : Action α} {next : α → Action β}
    (stays : ∀ value endpoint, left (next value endpoint) = endpoint) (endpoint : Endpoint) :
    left ((action >>= next) endpoint) = left (action endpoint) := by
  cases ran : action endpoint with
  | error stop after => rw [bind_error ran]; rfl
  | ok result after => rw [bind_ok ran, stays]; rfl

theorem readMessage_abides {next : Message → Action α} (endpoint : Endpoint)
    (goes : ∀ message read, Hears endpoint [message] read → Abides endpoint (left (next message read))) :
    Abides endpoint (left ((readMessage >>= next) endpoint)) := by
  rcases readMessage_hears endpoint with ⟨stop, after, read, heard⟩ | ⟨message, after, read, heard⟩
  · rw [bind_error read]
    exact heard.abides
  · rw [bind_ok read]
    exact goes message after heard

theorem packet_hears (packet : Packet) (endpoint : Endpoint) :
    Hears endpoint [] { endpoint with events := endpoint.events.push (.packet packet) } := by
  refine ⟨.refl _, ?_⟩
  rw [messages, messages, Array.toList_push, List.filterMap_append]
  rfl

theorem readMedia_abides (endpoint : Endpoint) : Abides endpoint (left (readMedia endpoint)) := by
  refine readMessage_abides endpoint fun message read heard => ?_
  cases media message with
  | packet packet => exact (heard.trans (packet_hears packet read)).abides
  | nameless => exact heard.abides
  | other =>
    dsimp only
    rw [left_bind fun _ _ => rfl]
    exact handle_abides heard

/-- An action that has to wait has heard nothing. -/
def Waits (action : Action α) : Prop :=
  ∀ endpoint after, action endpoint = .error .waiting after → Hears endpoint [] after

theorem send_fails {message : Message} {endpoint after : Endpoint} {stop : Stop}
    (stopped : send message endpoint = .error stop after) : ∃ error, stop = .failed error := by
  cases written : message.toBytes endpoint.connection.outChunkSize with
  | error error =>
    rw [send_error written] at stopped
    cases stopped
    exact ⟨error, rfl⟩
  | ok bytes =>
    rw [send_ok written] at stopped
    cases stopped

theorem handle_fails {message : Message} {endpoint after : Endpoint} {stop : Stop}
    (stopped : handle message endpoint = .error stop after) : ∃ error, stop = .failed error := by
  have replies_fail : ∀ (replies : List Message) (endpoint : Endpoint),
      replies.forM send endpoint = .error stop after → ∃ error, stop = .failed error := by
    intro replies
    induction replies with
    | nil => exact fun _ stopped => nomatch stopped
    | cons reply replies ih =>
      intro endpoint stopped
      have unfolded : (reply :: replies).forM send endpoint = (send reply >>= fun _ => replies.forM send) endpoint := rfl
      rw [unfolded] at stopped
      cases ran : send reply endpoint with
      | error earlier last =>
        rw [bind_error ran] at stopped
        cases stopped
        exact send_fails ran
      | ok value last =>
        rw [bind_ok ran] at stopped
        exact ih last stopped
  cases response : endpoint.connection.respond message with
  | error error =>
    rw [handle_error response] at stopped
    cases stopped
    exact ⟨error, rfl⟩
  | ok answer =>
    rw [handle_ok response] at stopped
    exact replies_fail _ _ stopped

theorem send_waits (message : Message) : Waits (send message) := by
  intro endpoint after stopped
  obtain ⟨error, failed⟩ := send_fails stopped
  cases failed

/-- Only the reading of a message can wait, not what is done with it. -/
theorem readMessage_waits {next : Message → Action α}
    (fails : ∀ message endpoint stop after, next message endpoint = .error stop after → stop ≠ .waiting) :
    Waits (readMessage >>= next) := by
  intro endpoint last stopped
  rcases readMessage_hears endpoint with ⟨stop, after, read, heard⟩ | ⟨message, after, read, heard⟩
  · rw [bind_error read] at stopped
    cases stopped
    exact heard
  · rw [bind_ok read] at stopped
    exact absurd rfl (fails message after _ last stopped)

theorem handle_bind_fails {message : Message} {next : Unit → Action α} {endpoint after : Endpoint} {stop : Stop}
    (goes : ∀ endpoint, ∃ value, next () endpoint = .ok value endpoint)
    (stopped : (handle message >>= next) endpoint = .error stop after) : stop ≠ .waiting := by
  cases ran : handle message endpoint with
  | error earlier last =>
    rw [bind_error ran] at stopped
    cases stopped
    obtain ⟨error, rfl⟩ := handle_fails ran
    exact Stop.noConfusion
  | ok value last =>
    obtain ⟨result, final⟩ := goes last
    rw [bind_ok ran, final] at stopped
    cases stopped

theorem readMedia_waits : Waits readMedia := by
  refine readMessage_waits fun message endpoint stop after stopped => ?_
  cases kind : media message with
  | packet packet => simp only [kind] at stopped; cases stopped
  | nameless => simp only [kind] at stopped; cases stopped
  | other =>
    simp only [kind] at stopped
    exact handle_bind_fails (fun endpoint => ⟨none, rfl⟩) stopped

theorem of_bind_ok {action : Action α} {next : α → Action β} {endpoint after : Endpoint} {value : β}
    (ran : (action >>= next) endpoint = .ok value after) :
    ∃ first middle, action endpoint = .ok first middle ∧ next first middle = .ok value after := by
  cases began : action endpoint with
  | error stop last =>
    rw [bind_error began] at ran
    cases ran
  | ok first middle =>
    rw [bind_ok began] at ran
    exact ⟨first, middle, rfl, ran⟩

theorem phase_of_ok {action : Action Unit} {endpoint after : Endpoint} {phase : Phase}
    (ran : (do action; return (← connection?).phase : Action Phase) endpoint = .ok phase after) :
    phase = after.connection.phase := by
  obtain ⟨_, last, _, answered⟩ := of_bind_ok ran
  cases answered
  rfl

theorem waitInbound_eq (endpoint : Endpoint) :
    waitInbound endpoint =
      if endpoint.inbound.isEmpty then
        if endpoint.ended then .ok false endpoint else .error .waiting endpoint
      else .ok true endpoint := by
  have unfolded : waitInbound endpoint = (if !endpoint.inbound.isEmpty then pure true
      else if endpoint.ended then pure false else throw .waiting : Action Bool) endpoint := rfl
  rw [unfolded]
  cases endpoint.inbound.isEmpty
  · rfl
  · cases ended : endpoint.ended <;> rfl

theorem waitInbound_left (endpoint : Endpoint) : left (waitInbound endpoint) = endpoint := by
  rw [waitInbound_eq]
  split
  · split <;> rfl
  · rfl

theorem waitInbound_waits : Waits waitInbound := by
  intro endpoint after stopped
  have same := waitInbound_left endpoint
  rw [stopped] at same
  exact same ▸ .refl after

theorem handshakeFrom_keeps (random : Bytes) (stages : Nat) (stage : Handshake.Stage) :
    Keeps (fun connection => connection.isPublish = false ∧ connection.phase ≠ .publishing)
      (handshakeFrom random stages stage) := by
  induction stages generalizing stage with
  | zero => exact .pure ()
  | succ stages ih =>
    refine (Keeps.update fun _ kept => ⟨kept.1, Phase.noConfusion⟩).bind fun _ => ?_
    refine (Keeps.receive _).bind fun received => ?_
    split
    · exact (Keeps.update fun _ kept => ⟨kept.1, Phase.noConfusion⟩).bind fun _ => .fail _
    · refine (Keeps.write _).bind fun _ => ?_
      split
      · exact ih _
      · exact .update fun _ kept => ⟨kept.1, Phase.noConfusion⟩

theorem handshake_keeps (random : Bytes) : Keeps Connection.Consistent (handshake random) := by
  intro endpoint consistent
  cases phase : endpoint.connection.phase with
  | handshaking stage =>
    have silent : endpoint.connection.isPublish = false ∧ endpoint.connection.phase ≠ .publishing := by
      have different : endpoint.connection.phase ≠ .publishing := by
        rw [phase]
        exact Phase.noConfusion
      exact ⟨Bool.eq_false_iff.mpr fun publishes => different (consistent.mp publishes), different⟩
    have ran : handshake random endpoint = handshakeFrom random 3 stage endpoint := by
      rw [handshake, bind_connection?, phase]
    rw [ran]
    obtain ⟨isPublish, different⟩ := handshakeFrom_keeps random 3 stage endpoint silent
    exact ⟨fun publishes => absurd publishes (isPublish ▸ Bool.false_ne_true), fun same => absurd same different⟩
  | readingHeader | publishing | playing | closed =>
    have ran : handshake random endpoint = fail (.violation .handshakeRepeated) endpoint := by
      rw [handshake, bind_connection?, phase]
    rw [ran]
    exact consistent

/-- The header is read up to the first request that is granted, so no other can follow it. -/
theorem readHeaderFrom_keeps (rounds : Bytes) : Keeps Connection.Consistent (readHeaderFrom rounds) := by
  induction rounds with
  | nil =>
    refine Keeps.connection?.bind fun connection => ?_
    split
    · exact .starve
    · exact .pure ()
  | cons round rounds ih =>
    intro endpoint consistent
    rw [readHeaderFrom, bind_connection?]
    split
    next reading =>
      rcases readMessage_hears endpoint with ⟨stop, after, read, heard⟩ | ⟨message, after, read, heard⟩
      · rw [bind_error read]
        exact heard.unturned.consistent consistent
      obtain ⟨next, turned, handled⟩ := handle_turns message after
      have before := heard.unturned.consistent consistent
      have turn : next.Consistent := by
        rcases turned with turn | rfl
        · exact turn.consistent before (heard.unturned.phase.trans reading)
        · exact before
      have kept := handled.unturned.consistent turn
      rw [bind_ok read]
      cases ran : handle message after with
      | error stop last =>
        rw [bind_error ran]
        rwa [ran] at kept
      | ok value last =>
        rw [bind_ok ran]
        rw [ran] at kept
        exact ih last kept
    next => exact consistent

theorem readHeader_keeps : Keeps Connection.Consistent readHeader := by
  refine Keeps.connection?.bind fun connection => ?_
  split
  · exact (Keeps.fail _).bind fun _ => Keeps.get.bind fun endpoint => readHeaderFrom_keeps endpoint.inbound
  · exact Keeps.get.bind fun endpoint => readHeaderFrom_keeps endpoint.inbound

end Endpoint

end RtmpRelay
