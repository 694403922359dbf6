import RtmpRelay.Proofs.Responses

/-! What a client asks for, and what becomes of the connection. Most messages ask for nothing: they may set the sizes by
which the connection is read. A command that is understood sets the role of the connection or says nothing about it. -/

namespace RtmpRelay

namespace Connection

/-- What a message that is not refused makes of a connection, by what it asks for. -/
inductive Turn (connection : Connection) : Option Request → Connection → Prop where
  | connect (info : ConnectInfo) : Turn connection (some .connect) { connection with info }
  | createStream : Turn connection (some .createStream) connection
  | publish (streamName : String) :
      Turn connection (some .publish) { connection with streamName, isPublish := true, phase := .publishing }
  | play (streamName : String) : Turn connection (some .play) { connection with streamName, phase := .playing }
  | close : Turn connection (some .close) { connection with phase := .closed }
  | other {remoteChunkSize remoteWindowAckSize : UInt32}
      (valid : remoteChunkSize = connection.remoteChunkSize ∨
        minChunkSize ≤ remoteChunkSize ∧ remoteChunkSize ≤ maxChunkSize) :
      Turn connection none { connection with remoteChunkSize, remoteWindowAckSize }

variable {connection next : Connection} {message : Message} {replies : List Message}

theorem Turn.idle (connection : Connection) : connection.Turn none connection :=
  .other (.inl rfl)

theorem respond_turn (accepted : connection.respond message = .ok (next, replies)) :
    connection.Turn message.request? next := by
  cases respond_accepts accepted with
  | chunkSize type valid =>
    rw [Message.request?, type]
    exact .other (.inr valid)
  | window type =>
    rw [Message.request?, type]
    exact .other (.inl rfl)
  | ping type =>
    rw [Message.request?, type]
    exact .idle connection
  | idle silent => exact silent ▸ .idle connection
  | connect asks info => exact asks ▸ .connect info
  | createStream asks => exact asks ▸ .createStream
  | publish asks streamName => exact asks ▸ .publish streamName
  | play asks streamName => exact asks ▸ .play streamName
  | close asks => exact asks ▸ .close

end Connection
end RtmpRelay
