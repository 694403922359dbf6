import RtmpRelay.Proofs.Actions
import RtmpRelay.Proofs.Replies

/-! What comes of a message. On a connection alone the steps of its handling collect the answers, at an endpoint they send
them, and both come to the same. All that is wrong with a message comes to light before the first step that leaves a
trace; from then on nothing but the sending can fail. -/

namespace RtmpRelay
open Chunk (BasicHeader)

/-- What a message asks for, whether or not it is granted. -/
def Message.request? (message : Message) : Option Request :=
  match MessageType.ofId? message.typeId with
  | some .amf0Command => named (Connection.commandBody .amf0Command message.payload)
  | some .amf3Command => named (Connection.commandBody .amf3Command message.payload)
  | _ => none
where
  named (body : Bytes) : Option Request :=
    match Amf.Amf0.decodeBatch body with
    | .ok (.string name :: _) => Request.ofName? name
    | _ => none

namespace Connection

/-- The state is the connection and the answers so far. -/
abbrev Answering := StateT (Connection × List Message) (Except Error)

def answering : Handling Answering where
  refuse := throw
  connection := return (← get).1
  update change := modify fun state => (change state.1, state.2)
  send reply := modify fun state => (state.1, state.2 ++ [reply])

abbrev Response := Except Error (Connection × List Message)

/-- The connection after a message, and the answers in the order in which they are sent. -/
def respond (connection : Connection) (message : Message) : Response :=
  ((answering.handle message).run (connection, [])).map Prod.snd

/-- All that can come of a message that is not refused. -/
inductive Accepts (connection : Connection) (message : Message) : Connection → List Message → Prop where
  | chunkSize {size : UInt32} (type : message.typeId = 1) (valid : minChunkSize ≤ size ∧ size ≤ maxChunkSize) :
      Accepts connection message { connection with remoteChunkSize := size } []
  | window (type : message.typeId = 5) (chunkStream : message.chunkStream = 2) (streamId : message.streamId = 0)
      (length : message.payload.length = 4) : Accepts connection message
        { connection with remoteWindowAckSize := UInt32.ofNat (Bytes.beValue message.payload) } []
  | ping {time : UInt32} {rest : Bytes} (type : message.typeId = 4)
      (payload : message.payload = [0, 6] ++ Bytes.be 4 time.toNat ++ rest) :
      Accepts connection message connection [.pingResponse time]
  | idle (silent : message.request? = none) (unset : message.typeId ≠ 5) : Accepts connection message connection []
  | connect {payload : Bytes} {values : List Amf.Value} (asks : message.request? = some .connect) (info : ConnectInfo)
      (carries : Reply.Carries payload values) : Accepts connection message { connection with info } [
        .windowAckSize connection.windowAckSize,
        .setPeerBandwidth connection.windowAckSize dynamicLimit,
        .setChunkSize connection.localChunkSize,
        .streamBegin controlMessageStream,
        .command message.chunkStream message.streamId payload]
  | createStream {payload : Bytes} {values : List Amf.Value} (asks : message.request? = some .createStream)
      (carries : Reply.Carries payload values) : Accepts connection message connection [
        .streamBegin mediaMessageStream,
        .command message.chunkStream message.streamId payload]
  | publish {payload : Bytes} {values : List Amf.Value} (asks : message.request? = some .publish) (streamName : String)
      (carries : Reply.Carries payload values) : Accepts connection message
        { connection with streamName, isPublish := true, phase := .publishing }
        [.command message.chunkStream message.streamId payload]
  | play {reset start : Bytes} {first second : List Amf.Value} (asks : message.request? = some .play)
      (streamName : String) (resets : Reply.Carries reset first) (starts : Reply.Carries start second) :
      Accepts connection message { connection with streamName, phase := .playing } [
        .setChunkSize connection.localChunkSize,
        .streamIsRecorded message.streamId,
        .streamBegin message.streamId,
        .command message.chunkStream message.streamId reset,
        .command message.chunkStream message.streamId start]
  | close (asks : message.request? = some .close) :
      Accepts connection message { connection with phase := .closed } []

theorem Accepts.fits {connection next : Connection} {message : Message} {replies : List Message}
    (accepts : connection.Accepts message next replies) (encodable : BasicHeader.Encodable message.chunkStream) :
    ∀ reply ∈ replies, reply.Fits := by
  cases accepts with
  | chunkSize | window | idle | close => exact List.forall_mem_nil _
  | ping => exact List.forall_mem_singleton.mpr (Message.userControl_fits _ _)
  | connect _ _ carries =>
    simp only [List.forall_mem_cons]
    exact ⟨Message.word_fits _ _, Message.setPeerBandwidth_fits _ _, Message.word_fits _ _,
      Message.userControl_fits _ _, Message.command_fits encodable _ carries, List.forall_mem_nil _⟩
  | createStream _ carries =>
    simp only [List.forall_mem_cons]
    exact ⟨Message.userControl_fits _ _, Message.command_fits encodable _ carries, List.forall_mem_nil _⟩
  | publish _ _ carries => exact List.forall_mem_singleton.mpr (Message.command_fits encodable _ carries)
  | play _ _ resets starts =>
    simp only [List.forall_mem_cons]
    exact ⟨Message.word_fits _ _, Message.userControl_fits _ _, Message.userControl_fits _ _,
      Message.command_fits encodable _ resets, Message.command_fits encodable _ starts, List.forall_mem_nil _⟩

theorem controlValue_ok (type : MessageType) {message : Message} (chunkStream : message.chunkStream = 2)
    (streamId : message.streamId = 0) (length : message.payload.length = controlLength type) :
    controlValue type message = .ok (UInt32.ofNat (Bytes.beValue (message.payload.take 4))) := by
  simp only [controlValue, chunkStream, streamId, length, controlChunkStream, controlMessageStream, ne_eq,
    not_true_eq_false, if_false]
  rfl

theorem of_controlValue {type : MessageType} {message : Message} {value : UInt32}
    (valid : controlValue type message = .ok value) :
    message.chunkStream = 2 ∧ message.streamId = 0 ∧ message.payload.length = controlLength type ∧
      value = UInt32.ofNat (Bytes.beValue (message.payload.take 4)) := by
  simp only [controlValue] at valid
  split at valid
  next => cases valid
  next chunkStream =>
  split at valid
  next => cases valid
  next streamId =>
  split at valid
  next => cases valid
  next length =>
    cases valid
    exact ⟨Decidable.not_not.mp chunkStream, Decidable.not_not.mp streamId, Decidable.not_not.mp length, rfl⟩

theorem of_ping {payload head rest : Bytes} (front : payload.split? 6 = some (head, rest))
    (ping : head.take 2 = Bytes.be 2 UserEvent.pingRequest.id.toNat) :
    payload = [0, 6] ++ Bytes.be 4 (UInt32.ofNat (Bytes.beValue (head.drop 2))).toNat ++ rest := by
  obtain ⟨six, whole⟩ := Chunk.Reader.of_take front
  have four : (head.drop 2).length = 4 := by rw [List.length_drop, six]
  have small : Bytes.beValue (head.drop 2) < UInt32.size := by
    have below := Bytes.beValue_lt (head.drop 2)
    rwa [four] at below
  have time : Bytes.be 4 (Bytes.beValue (head.drop 2)) = head.drop 2 := by
    have again := Bytes.be_beValue (head.drop 2)
    rwa [four] at again
  have event : ([0, 6] : Bytes) = head.take 2 := ping.symm
  rw [UInt32.toNat_ofNat_of_lt' small, time, event, List.take_append_drop, whole]

theorem of_checkChunkSize {size : UInt32} {checked : Unit} (valid : checkChunkSize size = .ok checked) :
    minChunkSize ≤ size ∧ size ≤ maxChunkSize := by
  rw [checkChunkSize] at valid
  split at valid
  next => cases valid
  next inRange =>
    rw [not_or, UInt32.not_lt, UInt32.not_lt] at inRange
    exact inRange

end Connection

namespace Endpoint
open Connection (Answering answering)

section Steps
variable (put : Bytes → Action Unit)

/-- Steps that change the connection in one way and then send messages, on a connection alone and at an endpoint. -/
structure Settles (change : Connection → Connection) (replies : List Message) (plan : Answering Unit)
    (action : Action Unit) : Prop where
  planned : ∀ connection earlier, plan (connection, earlier) = .ok ((), change connection, earlier ++ replies)
  acted : ∀ endpoint : Endpoint,
    action endpoint = replies.forM (sendVia put) { endpoint with connection := change endpoint.connection }

/-- Steps that refuse the message and leave the endpoint as it is, or else accept it. -/
inductive Decides (message : Message) (endpoint : Endpoint) (plan : Answering Unit) (action : Action Unit) : Prop where
  | refused {error : Error} (planned : plan (endpoint.connection, []) = .error error)
      (acted : action endpoint = .error (.failed error) endpoint) : Decides message endpoint plan action
  | accepted {next : Connection} {replies : List Message} (accepts : endpoint.connection.Accepts message next replies)
      (planned : plan (endpoint.connection, []) = .ok ((), next, replies))
      (acted : action endpoint = replies.forM (sendVia put) { endpoint with connection := next }) :
      Decides message endpoint plan action

end Steps

section Rules
variable {put : Bytes → Action Unit} {change : Connection → Connection} {reply : Message} {replies : List Message}
  {plan : Answering Unit} {action : Action Unit}

theorem Settles.nothing : Settles put id [] (pure ()) (pure ()) :=
  ⟨fun _ earlier => by rw [List.append_nil]; rfl, fun _ => rfl⟩

theorem Settles.update (step : Connection → Connection) (others : Settles put change replies plan action) :
    Settles put (change ∘ step) replies (answering.update step >>= fun _ => plan)
      ((handlingVia put).update step >>= fun _ => action) :=
  ⟨fun _ _ => others.planned _ _, fun _ => others.acted _⟩

theorem Settles.send (others : Settles put id replies plan action) :
    Settles put id (reply :: replies) (answering.send reply >>= fun _ => plan)
      ((handlingVia put).send reply >>= fun _ => action) := by
  refine ⟨fun connection earlier => ?_, fun endpoint => ?_⟩
  · rw [List.append_cons]
    exact others.planned connection (earlier ++ [reply])
  · rw [show action = replies.forM (sendVia put) from funext others.acted]
    rfl

theorem Settles.last_send : Settles put id [reply] (answering.send reply) ((handlingVia put).send reply) :=
  ⟨fun _ _ => rfl, fun endpoint => (congrFun (bind_pure_unit (x := sendVia put reply)) endpoint).symm⟩

theorem Settles.last_update : Settles put change [] (answering.update change) ((handlingVia put).update change) :=
  ⟨fun _ earlier => by rw [List.append_nil]; rfl, fun _ => rfl⟩

theorem Settles.lift {α : Type} {result : Except Error α} {value : α} {plan : α → Answering Unit}
    {action : α → Action Unit} (success : result = .ok value)
    (others : Settles put change replies (plan value) (action value)) :
    Settles put change replies (answering.lift result >>= plan) ((handlingVia put).lift result >>= action) := by
  subst success
  exact others

variable {message : Message} {endpoint : Endpoint}

theorem Settles.decides (settles : Settles put change replies plan action)
    (accepts : endpoint.connection.Accepts message (change endpoint.connection) replies) :
    Decides put message endpoint plan action :=
  .accepted accepts (settles.planned _ []) (settles.acted endpoint)

theorem Decides.refuse (error : Error) :
    Decides put message endpoint (answering.refuse error) ((handlingVia put).refuse error) :=
  .refused rfl rfl

theorem Decides.connection {plan : Connection → Answering Unit} {action : Connection → Action Unit}
    (others : Decides put message endpoint (plan endpoint.connection) (action endpoint.connection)) :
    Decides put message endpoint (answering.connection >>= plan) ((handlingVia put).connection >>= action) := by
  cases others with
  | refused planned acted => exact .refused planned acted
  | accepted accepts planned acted => exact .accepted accepts planned acted

theorem Decides.lift {α : Type} {result : Except Error α} {plan : α → Answering Unit} {action : α → Action Unit}
    (others : ∀ value, result = .ok value → Decides put message endpoint (plan value) (action value)) :
    Decides put message endpoint (answering.lift result >>= plan) ((handlingVia put).lift result >>= action) := by
  cases result with
  | error error => exact .refused rfl rfl
  | ok value => exact others value rfl

end Rules

section Handlers
variable (put : Bytes → Action Unit) {message : Message} (arguments : List Amf.Value) (endpoint : Endpoint)

theorem control_decides {type : MessageType} (known : type.id = message.typeId) (silent : message.request? = none) :
    Decides put message endpoint (answering.control message type) ((handlingVia put).control message type) := by
  refine .lift fun value valid => ?_
  obtain ⟨chunkStream, streamId, length, rfl⟩ := Connection.of_controlValue valid
  have idle (unset : type ≠ .windowAckSize) : Decides put message endpoint (pure ()) (pure ()) := by
    refine Settles.nothing.decides (.idle silent fun same => unset ?_)
    cases type <;> first | rfl | cases known.trans same
  cases type with
  | setChunkSize =>
    refine .lift fun _ inRange => Settles.last_update.decides ?_
    exact .chunkSize known.symm (Connection.of_checkChunkSize inRange)
  | windowAckSize =>
    have four : message.payload.length = 4 := length
    rw [List.take_of_length_le (Nat.le_of_eq four)]
    exact Settles.last_update.decides (.window known.symm chunkStream streamId four)
  | _ => exact idle nofun

theorem userControl_decides (type : message.typeId = 4) :
    Decides put message endpoint (answering.userControl message) ((handlingVia put).userControl message) := by
  have idle : Decides put message endpoint (pure ()) (pure ()) :=
    Settles.nothing.decides (.idle (by rw [Message.request?, type]; rfl) (by rw [type]; decide))
  unfold Handling.userControl
  cases front : message.payload.split? 6 with
  | none => exact idle
  | some cut =>
    obtain ⟨head, rest⟩ := cut
    dsimp only
    by_cases ping : head.take 2 = Bytes.be 2 UserEvent.pingRequest.id.toNat
    · rw [if_pos ping, if_pos ping]
      exact Settles.last_send.decides (.ping type (Connection.of_ping front ping))
    · rw [if_neg ping, if_neg ping]
      exact idle

theorem connect_decides (asks : message.request? = some .connect) :
    Decides put message endpoint (answering.connect message arguments)
      ((handlingVia put).connect message arguments) := by
  refine .connection (.lift fun _ _ => ?_)
  cases arguments[1]? with
  | none => exact .refuse _
  | some object =>
    obtain ⟨payload, encoded, carries⟩ := Reply.connectResult_carries (Double.ofNat 1)
      (ConnectInfo.ofCommandObject object).objectEncoding
    exact Settles.decides (.update _ (.send (.send (.send (.send (.lift encoded .last_send))))))
      (.connect asks _ carries)

theorem createStream_decides (asks : message.request? = some .createStream) :
    Decides put message endpoint (answering.createStream message arguments)
      ((handlingVia put).createStream message arguments) := by
  obtain ⟨payload, encoded, carries⟩ := Reply.createStreamResult_carries
    ((arguments.head?.bind Amf.Value.number?).getD Double.zero) mediaMessageStream
  exact Settles.decides (.send (.lift encoded .last_send)) (.createStream asks carries)

theorem publish_decides (asks : message.request? = some .publish) :
    Decides put message endpoint (answering.publish message arguments)
      ((handlingVia put).publish message arguments) := by
  obtain ⟨start, encoded, carries⟩ := Reply.publishStart_carries
  refine .lift fun streamName _ => ?_
  exact Settles.decides (.update _ (.update _ (.update _ (.lift encoded .last_send)))) (.publish asks streamName carries)

theorem play_decides (asks : message.request? = some .play) :
    Decides put message endpoint (answering.play message arguments) ((handlingVia put).play message arguments) := by
  obtain ⟨reset, resetting, resets⟩ := Reply.playReset_carries
  obtain ⟨start, starting, starts⟩ := Reply.playStart_carries
  refine .connection (.lift fun streamName _ => ?_)
  exact Settles.decides
    (.update _ (.update _ (.send (.send (.send (.lift resetting (.lift starting (.send .last_send))))))))
    (.play asks streamName resets starts)

theorem request_decides {request : Option Request} (asks : message.request? = request) (unset : message.typeId ≠ 5) :
    Decides put message endpoint (answering.request message arguments request)
      ((handlingVia put).request message arguments request) := by
  cases request with
  | none => exact Settles.nothing.decides (.idle asks unset)
  | some request =>
    cases request with
    | connect => exact connect_decides put arguments endpoint asks
    | createStream => exact createStream_decides put arguments endpoint asks
    | publish => exact publish_decides put arguments endpoint asks
    | play => exact play_decides put arguments endpoint asks
    | close => exact Settles.last_update.decides (.close asks)

theorem command_decides {type : MessageType}
    (named : message.request? = Message.request?.named (Connection.commandBody type message.payload))
    (unset : message.typeId ≠ 5) :
    Decides put message endpoint (answering.command message type) ((handlingVia put).command message type) := by
  refine .lift fun values decoded => ?_
  have read : Amf.Amf0.decodeBatch (Connection.commandBody type message.payload) = .ok values := by
    cases found : Amf.Amf0.decodeBatch (Connection.commandBody type message.payload) with
    | error error => rw [found] at decoded; cases decoded
    | ok values => rw [found] at decoded; cases decoded; rfl
  rw [Message.request?.named, read] at named
  cases values with
  | nil => exact .refuse _
  | cons first arguments =>
    cases first with
    | string name => exact request_decides put arguments endpoint named unset
    | _ => exact .refuse _

theorem handle_decides (message : Message) :
    Decides put message endpoint (answering.handle message) (handleVia put message) := by
  unfold handleVia Handling.handle
  cases known : MessageType.ofId? message.typeId with
  | none => exact .refuse _
  | some type =>
    have same := MessageType.id_of_ofId? known
    have unset (different : type ≠ .windowAckSize) : message.typeId ≠ 5 := by
      intro five
      rw [show message.typeId = MessageType.windowAckSize.id from five, MessageType.ofId?_id] at known
      exact different (Option.some.inj known).symm
    cases type with
    | setChunkSize | abort | acknowledgement | windowAckSize | setPeerBandwidth =>
      exact control_decides put endpoint same (by rw [Message.request?, known])
    | userControl => exact userControl_decides put endpoint same.symm
    | amf0Command | amf3Command =>
      exact command_decides put endpoint (by rw [Message.request?, known]) (unset nofun)
    | audio | video | amf0Data | amf3Data | amf0SharedObject | amf3SharedObject | aggregate =>
      exact Settles.nothing.decides (.idle (by rw [Message.request?, known]) (unset nofun))

end Handlers

section Handling
variable {endpoint : Endpoint} {message : Message} {next : Connection} {replies : List Message} {error : Error}

theorem handleVia_ok (put : Bytes → Action Unit)
    (accepted : endpoint.connection.respond message = .ok (next, replies)) :
    handleVia put message endpoint = replies.forM (sendVia put) { endpoint with connection := next } := by
  cases handle_decides put endpoint message with
  | refused planned _ =>
    rw [Connection.respond, StateT.run, planned] at accepted
    cases accepted
  | accepted _ planned acted =>
    rw [Connection.respond, StateT.run, planned] at accepted
    cases accepted
    exact acted

theorem handle_ok (accepted : endpoint.connection.respond message = .ok (next, replies)) :
    handle message endpoint = replies.forM send { endpoint with connection := next } :=
  handleVia_ok write accepted

theorem handle_error (refused : endpoint.connection.respond message = .error error) :
    handle message endpoint = .error (.failed error) endpoint := by
  cases handle_decides write endpoint message with
  | refused planned acted =>
    rw [Connection.respond, StateT.run, planned] at refused
    cases refused
    exact acted
  | accepted _ planned _ =>
    rw [Connection.respond, StateT.run, planned] at refused
    cases refused

end Handling

end Endpoint

theorem Connection.respond_accepts {connection next : Connection} {message : Message} {replies : List Message}
    (accepted : connection.respond message = .ok (next, replies)) : connection.Accepts message next replies := by
  let endpoint : Endpoint := { Endpoint.new .standard with connection }
  cases Endpoint.handle_decides Endpoint.write endpoint message with
  | refused planned _ =>
    rw [respond, StateT.run, show answering.handle message (connection, []) = _ from planned] at accepted
    cases accepted
  | accepted accepts planned _ =>
    rw [respond, StateT.run, show answering.handle message (connection, []) = _ from planned] at accepted
    cases accepted
    exact accepts

end RtmpRelay
