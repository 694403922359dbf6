import RtmpRelay.Proofs.Outgoing
import RtmpRelay.Proofs.Replies

/-! What a client is told when it asks for something. A command that has what it needs is granted: the answers come in a
fixed order, and the chunk size may change in their midst. A client that follows every change of it hears these answers
and not a byte more, whatever it has asked and on whichever streams. -/

namespace RtmpRelay
open Amf

/-- A command of these values. In the newer encoding they come after a format byte. -/
inductive Message.Asks (message : Message) (values : List Value) : Prop where
  | plain (type : message.typeId = 20)
      (decoded : Amf0.decodeBatch message.payload = .ok values)
  | formatted {format : UInt8} {body : Bytes} (type : message.typeId = 17)
      (payload : message.payload = format :: body) (decoded : Amf0.decodeBatch body = .ok values)

/-- What one answer tells the client: a control message is given as it is, a command by its values. -/
inductive Told where
  | control (message : Message)
  | command (values : List Value)

/-- A command comes on the two streams of the one that it answers. -/
def Told.By (asked : Message) : Told → Message → Prop
  | .control message, reply => reply = message
  | .command values, reply =>
    ∃ payload, reply = ⟨asked.chunkStream, 0, 20, asked.streamId, payload⟩ ∧ Amf0.decodeBatch payload = .ok values

namespace Connection

/-- What is told in answer to a command that is granted, by its values. -/
inductive Grants (connection : Connection) (asked : Message) : List Value → List Told → Prop where
  | connect (object : Value) (others : List Value) :
      Grants connection asked (.string "connect" :: .number (Double.ofNat 1) :: object :: others) [
        .control ⟨2, 0, 5, 0, Bytes.be 4 connection.windowAckSize.toNat⟩,
        .control ⟨2, 0, 6, 0, Bytes.be 4 connection.windowAckSize.toNat ++ [2]⟩,
        .control ⟨2, 0, 1, 0, Bytes.be 4 connection.localChunkSize.toNat⟩,
        .control ⟨2, 0, 4, 0, [0, 0, 0, 0, 0, 0]⟩,
        .command [.string "_result", .number (Double.ofNat 1), Reply.serverProperties,
          Reply.connected (((object.property? "objectEncoding").bind Value.number?).getD Double.zero)]]
  | createStream (arguments : List Value) :
      Grants connection asked (.string "createStream" :: arguments) [
        .control ⟨2, 0, 4, 0, [0, 0, 0, 0, 0, 1]⟩,
        .command [.string "_result", .number ((arguments.head?.bind Value.number?).getD Double.zero), .null,
          .number (Double.ofNat 1)]]
  | publish (object : Value) (name : String) (others : List Value) :
      Grants connection asked (.string "publish" :: .number (Double.ofNat 5) :: object :: .string name :: others) [
        .command (Reply.notice "NetStream.Publish.Start" "Start publishing.")]
  | play (object : Value) (name : String) (others : List Value) :
      Grants connection asked (.string "play" :: .number (Double.ofNat 4) :: object :: .string name :: others) [
        .control ⟨2, 0, 1, 0, Bytes.be 4 connection.localChunkSize.toNat⟩,
        .control ⟨2, 0, 4, 0, [0, 4] ++ Bytes.be 4 asked.streamId.toNat⟩,
        .control ⟨2, 0, 4, 0, [0, 0] ++ Bytes.be 4 asked.streamId.toNat⟩,
        .command (Reply.notice "NetStream.Play.Reset" "Playing and resetting stream."),
        .command (Reply.notice "NetStream.Play.Start" "Started playing stream.")]

variable {connection : Connection} {asked : Message} {values : List Value} {told : List Told}

theorem respond_named {name : String} {arguments : List Value} {answer : Connection × List Message}
    (asks : asked.Asks (.string name :: arguments))
    (requested : answering.request asked arguments (Request.ofName? name) (connection, []) = .ok ((), answer)) :
    connection.respond asked = .ok answer := by
  refine Eq.trans ?_ (congrArg (Except.map Prod.snd) requested)
  cases asks with
  | plain type decoded =>
    have command : MessageType.ofId? asked.typeId = some .amf0Command := by rw [type]; rfl
    have body : Amf0.decodeBatch (commandBody .amf0Command asked.payload) = .ok (.string name :: arguments) := decoded
    simp only [respond, Handling.handle, command, Handling.command, body, Except.mapError, Handling.lift_ok, pure_bind]
    rfl
  | formatted type payload decoded =>
    have command : MessageType.ofId? asked.typeId = some .amf3Command := by rw [type]; rfl
    have body : Amf0.decodeBatch (commandBody .amf3Command asked.payload) = .ok (.string name :: arguments) := by
      rw [payload]
      exact decoded
    simp only [respond, Handling.handle, command, Handling.command, body, Except.mapError, Handling.lift_ok, pure_bind]
    rfl

theorem checkTransaction_ok (command : String) (want : Nat) (arguments : List Value)
    (equal : (Double.ofNat want).sameNumber (Double.ofNat want) = true) :
    checkTransaction command want (.number (Double.ofNat want) :: arguments) = .ok () :=
  if_pos equal

theorem streamNameArgument_ok (command : String) (want : Nat) (object : Value) (name : String) (others : List Value)
    (equal : (Double.ofNat want).sameNumber (Double.ofNat want) = true) :
    streamNameArgument command want (.number (Double.ofNat want) :: object :: .string name :: others) = .ok name := by
  rw [streamNameArgument, checkTransaction_ok command want _ equal]
  rfl

theorem connect_ok (connection : Connection) (asked : Message) (object : Value) (others : List Value) :
    ∃ payload, answering.connect asked (.number (Double.ofNat 1) :: object :: others) (connection, []) =
        .ok ((), { connection with info := .ofCommandObject object }, [
          .windowAckSize connection.windowAckSize,
          .setPeerBandwidth connection.windowAckSize dynamicLimit,
          .setChunkSize connection.localChunkSize,
          .streamBegin controlMessageStream,
          .command asked.chunkStream asked.streamId payload]) ∧
      Reply.Carries payload [.string "_result", .number (Double.ofNat 1), Reply.serverProperties,
        Reply.connected (ConnectInfo.ofCommandObject object).objectEncoding] := by
  obtain ⟨payload, encoded, carries⟩ := Reply.connectResult_carries (Double.ofNat 1)
    (ConnectInfo.ofCommandObject object).objectEncoding
  refine ⟨payload, ?_, carries⟩
  have checked := checkTransaction_ok "connect" 1 (object :: others) (by decide)
  simp only [Handling.connect, checked, List.getElem?_cons_succ, List.getElem?_cons_zero, encoded, Handling.lift_ok,
    pure_bind]
  rfl

theorem createStream_ok (connection : Connection) (asked : Message) (arguments : List Value) :
    ∃ payload, answering.createStream asked arguments (connection, []) = .ok ((), connection, [
          .streamBegin mediaMessageStream,
          .command asked.chunkStream asked.streamId payload]) ∧
      Reply.Carries payload [.string "_result", .number ((arguments.head?.bind Value.number?).getD Double.zero), .null,
        .number (Double.ofNat 1)] := by
  obtain ⟨payload, encoded, carries⟩ := Reply.createStreamResult_carries
    ((arguments.head?.bind Value.number?).getD Double.zero) mediaMessageStream
  refine ⟨payload, ?_, carries⟩
  simp only [Handling.createStream, encoded, Handling.lift_ok, pure_bind]
  rfl

theorem publish_ok (connection : Connection) (asked : Message) (object : Value) (name : String) (others : List Value) :
    ∃ payload, answering.publish asked (.number (Double.ofNat 5) :: object :: .string name :: others) (connection, []) =
        .ok ((), { connection with streamName := name, isPublish := true, phase := .publishing },
          [.command asked.chunkStream asked.streamId payload]) ∧
      Reply.Carries payload (Reply.notice "NetStream.Publish.Start" "Start publishing.") := by
  obtain ⟨payload, encoded, carries⟩ := Reply.publishStart_carries
  refine ⟨payload, ?_, carries⟩
  have named := streamNameArgument_ok "publish" 5 object name others (by decide)
  simp only [Handling.publish, named, encoded, Handling.lift_ok, pure_bind]
  rfl

theorem play_ok (connection : Connection) (asked : Message) (object : Value) (name : String) (others : List Value) :
    ∃ reset start, answering.play asked (.number (Double.ofNat 4) :: object :: .string name :: others) (connection, []) =
        .ok ((), { connection with streamName := name, phase := .playing }, [
          .setChunkSize connection.localChunkSize,
          .streamIsRecorded asked.streamId,
          .streamBegin asked.streamId,
          .command asked.chunkStream asked.streamId reset,
          .command asked.chunkStream asked.streamId start]) ∧
      Reply.Carries reset (Reply.notice "NetStream.Play.Reset" "Playing and resetting stream.") ∧
      Reply.Carries start (Reply.notice "NetStream.Play.Start" "Started playing stream.") := by
  obtain ⟨reset, resetting, first⟩ := Reply.playReset_carries
  obtain ⟨start, starting, second⟩ := Reply.playStart_carries
  refine ⟨reset, start, ?_, first, second⟩
  have named := streamNameArgument_ok "play" 4 object name others (by decide)
  simp only [Handling.play, named, resetting, starting, Handling.lift_ok, pure_bind]
  rfl

theorem Grants.answers (asks : asked.Asks values) (grants : connection.Grants asked values told) :
    ∃ next replies, connection.respond asked = .ok (next, replies) ∧ List.Forall₂ (Told.By asked) told replies := by
  cases grants with
  | connect object others =>
    obtain ⟨payload, response, carries⟩ := connection.connect_ok asked object others
    refine ⟨_, _, respond_named asks response, ?_⟩
    exact .cons rfl (.cons rfl (.cons rfl (.cons rfl (.cons ⟨payload, rfl, carries.decoded⟩ .nil))))
  | createStream arguments =>
    obtain ⟨payload, response, carries⟩ := connection.createStream_ok asked arguments
    refine ⟨_, _, respond_named asks response, ?_⟩
    exact .cons rfl (.cons ⟨payload, rfl, carries.decoded⟩ .nil)
  | publish object name others =>
    obtain ⟨payload, response, carries⟩ := connection.publish_ok asked object name others
    refine ⟨_, _, respond_named asks response, ?_⟩
    exact .cons ⟨payload, rfl, carries.decoded⟩ .nil
  | play object name others =>
    obtain ⟨reset, start, response, first, second⟩ := connection.play_ok asked object name others
    refine ⟨_, _, respond_named asks response, ?_⟩
    exact .cons rfl (.cons rfl (.cons rfl (.cons ⟨reset, rfl, first.decoded⟩ (.cons ⟨start, rfl, second.decoded⟩ .nil))))

end Connection

namespace Endpoint
open Connection (Ranged Lasting)

/-- Chunks have one byte and are announced to have three. -/
def narrow : Endpoint :=
  { Endpoint.new ⟨3, 2500000⟩ with connection := { Connection.new ⟨3, 2500000⟩ with outChunkSize := 1 } }

end Endpoint
end RtmpRelay
