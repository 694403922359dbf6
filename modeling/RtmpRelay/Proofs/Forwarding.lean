import RtmpRelay.Proofs.Agreement
import RtmpRelay.Proofs.Hearing
import RtmpRelay.Proofs.Lookahead

/-! From a publisher to a player. What a player's client gets depends on the message of the publisher alone, not on the
chunk sizes of the two connections. Sound and pictures go through as they are. Metadata loses what was meant for the
server: the byte in front of the values if the message has one, and the first of the values if it asks to keep them. -/

namespace RtmpRelay

theorem PacketKind.of_ofMessageType? {id : UInt8} {kind : PacketKind} (known : ofMessageType? id = some kind) :
    kind = .audio ∧ id = 8 ∨ kind = .video ∧ id = 9 ∨ kind = .metadata ∧ (id = 18 ∨ id = 15) := by
  rw [ofMessageType?] at known
  cases type : MessageType.ofId? id with
  | none => rw [type] at known; cases known
  | some found =>
    have same := MessageType.id_of_ofId? type
    rw [type] at known
    cases found <;> cases known <;> simp [← same, MessageType.id]

namespace Flv

theorem metadataName_append {first rest : Bytes} {name : String}
    (read : Amf.Amf0.next (first ++ rest) = .ok (.string name) rest) :
    metadataName (first ++ rest) = .ok (name, first.length) := by
  rw [metadataName, Amf.Amf0.decode_eq, read]
  simp only [List.length_append, Nat.add_sub_cancel]
  rfl

/-- The name of metadata is a text that was read off its front. -/
theorem of_metadataName {payload : Bytes} {name : String} {size : Nat}
    (named : metadataName payload = .ok (name, size)) :
    ∃ first rest, payload = first ++ rest ∧ Amf.Amf0.next payload = .ok (.string name) rest := by
  rw [metadataName, Amf.Amf0.decode_eq] at named
  cases read : Amf.Amf0.next payload with
  | error error rest => rw [read] at named; cases named
  | ok value rest =>
    obtain ⟨first, whole⟩ := Amf.Amf0.next_exact.suffix payload value rest read
    rw [read] at named
    cases value <;> cases named
    exact ⟨first, rest, whole.symm, rfl⟩

theorem stripSetDataFrame_append {first rest : Bytes} {name : String}
    (read : Amf.Amf0.next (first ++ rest) = .ok (.string name) rest) :
    stripSetDataFrame (first ++ rest) = .ok (if name = setDataFrame then rest else first ++ rest) := by
  rw [stripSetDataFrame, metadataName_append read]
  simp only [bind, Except.bind, pure, Except.pure, List.drop_left]

end Flv

theorem Packet.toMessage_metadata {streamId timestamp : UInt32} {first rest : Bytes} {name : String}
    (read : Amf.Amf0.next (first ++ rest) = .ok (.string name) rest) :
    (ofPayload .metadata streamId timestamp (first ++ rest)).toMessage =
      ⟨6, timestamp, 18, streamId, if name = "@setDataFrame" then rest else first ++ rest⟩ := by
  simp only [toMessage, ofPayload, Flv.stripSetDataFrame_append read]
  rfl

/-- What the client of a player gets for a message of a publisher. -/
inductive Forwards : Message → Message → Prop where
  | audio (chunkStream timestamp streamId : UInt32) (payload : Bytes) :
      Forwards ⟨chunkStream, timestamp, 8, streamId, payload⟩ ⟨4, timestamp, 8, streamId, payload⟩
  | video (chunkStream timestamp streamId : UInt32) (payload : Bytes) :
      Forwards ⟨chunkStream, timestamp, 9, streamId, payload⟩ ⟨6, timestamp, 9, streamId, payload⟩
  | metadata (chunkStream timestamp streamId : UInt32) {first rest : Bytes} {name : String}
      (named : Amf.Amf0.next (first ++ rest) = .ok (.string name) rest) :
      Forwards ⟨chunkStream, timestamp, 18, streamId, first ++ rest⟩
        ⟨6, timestamp, 18, streamId, if name = "@setDataFrame" then rest else first ++ rest⟩
  | markedMetadata (chunkStream timestamp streamId : UInt32) (mark : UInt8) {first rest : Bytes} {name : String}
      (named : Amf.Amf0.next (first ++ rest) = .ok (.string name) rest) :
      Forwards ⟨chunkStream, timestamp, 15, streamId, mark :: (first ++ rest)⟩
        ⟨6, timestamp, 18, streamId, if name = "@setDataFrame" then rest else first ++ rest⟩

namespace Forwards
variable {message relayed : Message}

theorem chunkStream (forwards : Forwards message relayed) : relayed.chunkStream = 4 ∨ relayed.chunkStream = 6 := by
  cases forwards <;> simp

theorem typeId (forwards : Forwards message relayed) : relayed.typeId ≠ 1 := by
  cases forwards <;> simp

theorem length (forwards : Forwards message relayed) : relayed.payload.length ≤ message.payload.length := by
  cases forwards with
  | audio | video => exact Nat.le_refl _
  | metadata =>
    split
    · simp
    · exact Nat.le_refl _
  | markedMetadata =>
    split
    · simp only [List.length_cons, List.length_append]
      omega
    · exact Nat.le_succ _

theorem fits (forwards : Forwards message relayed) (short : message.payload.length ≤ maxMessageLength) :
    relayed.Fits := by
  refine ⟨?_, forwards.length.trans short⟩
  rcases forwards.chunkStream with four | six
  · rw [four]
    exact ⟨by decide, by decide⟩
  · rw [six]
    exact ⟨by decide, by decide⟩

end Forwards

namespace Endpoint

/-- Metadata is a packet if there is a name at its front. -/
theorem of_metadata {streamId timestamp : UInt32} {payload : Bytes} {packet : Packet}
    (worth : (if PacketKind.metadata = .metadata ∧ (Flv.metadataName payload).toOption.isNone then Media.nameless
      else .packet (.ofPayload .metadata streamId timestamp payload)) = .packet packet) :
    ∃ first rest name, payload = first ++ rest ∧ Amf.Amf0.next (first ++ rest) = .ok (.string name) rest ∧
      packet = .ofPayload .metadata streamId timestamp (first ++ rest) := by
  split at worth
  next => cases worth
  next named =>
    cases worth
    cases front : Flv.metadataName payload with
    | error error => simp [front, Except.toOption] at named
    | ok found =>
      obtain ⟨first, rest, rfl, read⟩ := Flv.of_metadataName front
      exact ⟨first, rest, found.1, rfl, read, rfl⟩

theorem of_media {message : Message} {packet : Packet} (worth : media message = .packet packet) :
    Forwards message packet.toMessage := by
  obtain ⟨chunkStream, timestamp, typeId, streamId, payload⟩ := message
  rw [media] at worth
  cases known : PacketKind.ofMessageType? typeId with
  | none => simp only [known] at worth; cases worth
  | some kind =>
    simp only [known] at worth
    rcases PacketKind.of_ofMessageType? known with ⟨rfl, rfl⟩ | ⟨rfl, rfl⟩ | ⟨rfl, rfl | rfl⟩
    · cases worth
      exact .audio ..
    · cases worth
      exact .video ..
    · obtain ⟨first, rest, name, rfl, read, rfl⟩ := of_metadata worth
      rw [Packet.toMessage_metadata read]
      exact .metadata _ _ _ read
    · obtain ⟨first, rest, name, behind, read, rfl⟩ := of_metadata worth
      rw [Packet.toMessage_metadata read]
      cases payload with
      | nil =>
        rw [← behind] at read
        cases read
      | cons mark values =>
        cases (show values = first ++ rest from behind)
        exact .markedMetadata _ _ _ mark read

theorem readMedia_takes {endpoint after : Endpoint} {result : Option Packet} (reached : Reached endpoint)
    (read : readMedia endpoint = .ok result after) :
    ∃ message, after.messages = endpoint.messages ++ [message] ∧ message.payload.length ≤ maxMessageLength ∧
      match result with
      | some packet => media message = .packet packet
      | none => Reached after ∧ ∀ packet, media message ≠ .packet packet := by
  obtain ⟨message, middle, taken, done⟩ := of_bind_ok read
  have heard := Hears.of_readMessage taken
  have further : Reached middle := .message reached (by rw [taken]; rfl)
  have short : message.payload.length ≤ maxMessageLength := by
    obtain ⟨stream, member, length⟩ := readMessage_announced reached taken
    exact length ▸ (further.sound.streams _ stream member).sound.length_le
  refine ⟨message, ?_⟩
  cases worth : media message with
  | packet packet =>
    simp only [worth] at done
    cases done
    exact ⟨(heard.trans (packet_hears packet middle)).messages, short, rfl⟩
  | nameless =>
    simp only [worth] at done
    cases done
    exact ⟨heard.messages, short, further, fun _ => Media.noConfusion⟩
  | other =>
    simp only [worth] at done
    obtain ⟨_, last, handled, ended⟩ := of_bind_ok done
    cases ended
    obtain ⟨_, _, quiet⟩ := handle_turns message middle
    rw [handled] at quiet
    have same : after.messages = middle.messages ++ [] := quiet.messages
    rw [List.append_nil] at same
    exact ⟨same.trans heard.messages, short, .handle further message (by rw [handled]; rfl), fun _ => Media.noConfusion⟩

/-- The message that a packet was made of, behind all that were worth none. -/
theorem readPacketFrom_takes {endpoint after : Endpoint} {packet : Packet} {rounds : Bytes} (reached : Reached endpoint)
    (read : readPacketFrom rounds endpoint = .ok (some packet) after) :
    ∃ skipped message, after.messages = endpoint.messages ++ (skipped ++ [message]) ∧
      (∀ other ∈ skipped, ∀ packet, media other ≠ .packet packet) ∧ media message = .packet packet ∧
      message.payload.length ≤ maxMessageLength := by
  induction rounds generalizing endpoint with
  | nil =>
    rw [readPacketFrom, bind_connection?] at read
    split at read
    · cases read
    · rw [starve_eq] at read
      cases read
  | cons round rounds ih =>
    rw [readPacketFrom, bind_connection?] at read
    split at read
    · cases read
    · obtain ⟨result, middle, taken, done⟩ := of_bind_ok read
      obtain ⟨message, heard, short, worth⟩ := readMedia_takes reached taken
      cases result with
      | some found =>
        cases done
        exact ⟨[], message, heard, fun _ => (nomatch ·), worth, short⟩
      | none =>
        obtain ⟨skipped, last, behind, worthless, rest⟩ := ih worth.1 done
        refine ⟨message :: skipped, last, ?_, List.forall_mem_cons.mpr ⟨worth.2, worthless⟩, rest⟩
        rw [behind, heard, List.append_assoc]
        rfl

/-- A packet that was read goes out to any player. A client that cuts chunks of the same size as the player gets the
message that is due for it from these bytes: nothing more, and no byte of what follows. -/
theorem packets_are_forwarded {publisher after : Endpoint} {packet : Packet} (reached : Reached publisher)
    (read : readPacket publisher = .ok (some packet) after) (player : Endpoint) :
    ∃ (skipped : List Message) (message relayed : Message) (bytes : Bytes),
      after.messages = publisher.messages ++ (skipped ++ [message]) ∧
      (∀ other ∈ skipped, ∀ packet, media other ≠ .packet packet) ∧ Forwards message relayed ∧
      writePacket packet player = .ok () { player with outbound := player.outbound ++ bytes } ∧
      ∀ (client : Endpoint) (rest : Bytes), InStep player.connection.outChunkSize client.connection →
        ∃ next, readMessage { client with inbound := bytes ++ rest } = .ok relayed next ∧ next.inbound = rest ∧
          (rest = [] → readMessage next = .error next.starvation next) := by
  obtain ⟨skipped, message, heard, worthless, worth, short⟩ := readPacketFrom_takes reached read
  have forwards := of_media worth
  have fits := forwards.fits short
  obtain ⟨bytes, written⟩ := Message.toBytes_ok fits player.connection.outChunkSize
  refine ⟨skipped, message, packet.toMessage, bytes, heard, worthless, forwards, ?_, fun client rest inStep => ?_⟩
  · rw [writePacket, send_ok written, Connection.sent_other _ forwards.typeId]
  · let fed : Endpoint := { client with inbound := bytes ++ rest }
    have together : InStep player.connection.outChunkSize fed.connection := inStep
    obtain ⟨next, taken, left, _⟩ := readMessage_toBytes together fits written rfl
    exact ⟨next, taken, left, fun nothing => readMessage_nil (left.trans nothing)⟩

/-- What a run answers, if it comes to its end. -/
def answer? : EStateM.Result Stop Endpoint α → Option α
  | .ok value _ => some value
  | .error _ _ => none

theorem of_answer? {result : EStateM.Result Stop Endpoint α} {value : α} (answered : answer? result = some value) :
    ∃ after, result = .ok value after := by
  cases result with
  | error stop after => cases answered
  | ok found after => exact ⟨after, congrArg (EStateM.Result.ok · after) (Option.some.inj answered)⟩

/-- The request to publish "cam". -/
def asking : Message :=
  ⟨3, 0, 20, 1, [0x02, 0, 7, 0x70, 0x75, 0x62, 0x6c, 0x69, 0x73, 0x68, 0x00, 0x40, 0x14, 0, 0, 0, 0, 0, 0,
    0x05, 0x02, 0, 3, 0x63, 0x61, 0x6d]⟩

def greeted : Endpoint :=
  { Endpoint.new .standard with connection := { Connection.new .standard with phase := .readingHeader } }

/-- A publisher that has sent metadata without a name, and then some that is marked and to be kept. -/
def announcing : Endpoint :=
  (left (handle asking greeted)).feed
    [0x04, 0, 0, 7, 0, 0, 1, 18, 1, 0, 0, 0, 0x05,
      0x04, 0, 0, 7, 0, 0, 21, 15, 1, 0, 0, 0,
      0x00, 0x02, 0, 13, 0x40, 0x73, 0x65, 0x74, 0x44, 0x61, 0x74, 0x61, 0x46, 0x72, 0x61, 0x6d, 0x65, 0x02, 0, 1, 0x78]

theorem Reached.announcing : Reached announcing := by
  have start : Reached greeted := .fresh rfl
  exact (start.handle asking rfl).feed _

def listening : Endpoint :=
  { Endpoint.new .standard with connection := { Connection.new .standard with outChunkSize := 1 } }

/-- The metadata as it goes through the relay, without its mark. -/
def announced : Packet :=
  ⟨.metadata, 1, 7, [0x02, 0, 13, 0x40, 0x73, 0x65, 0x74, 0x44, 0x61, 0x74, 0x61, 0x46, 0x72, 0x61, 0x6d, 0x65,
    0x02, 0, 1, 0x78], none⟩

/-- The metadata as it goes to the player, without its first name and in chunks of one byte. -/
def forwarded : Bytes :=
  [0x06, 0, 0, 7, 0, 0, 4, 18, 1, 0, 0, 0, 2, 0xc6, 0, 0xc6, 1, 0xc6, 0x78]

/-- The player's client has half a message from before. -/
theorem marked_metadata_is_forwarded :
    ∃ after next, readPacket announcing = .ok (some announced) after ∧
      writePacket announced listening = .ok () { listening with outbound := listening.outbound ++ forwarded } ∧
      readMessage { halfway with inbound := forwarded ++ [7] } = .ok ⟨6, 7, 18, 1, [2, 0, 1, 0x78]⟩ next ∧
      next.inbound = [7] := by
  obtain ⟨after, read⟩ := of_answer? (show answer? (readPacket announcing) = some (some announced) by decide +kernel)
  obtain ⟨_, _, relayed, bytes, _, _, _, wrote, follows⟩ :=
    packets_are_forwarded .announcing read listening
  have cut : ∀ result, writePacket announced listening = result → (left result).outbound.toList = forwarded := by
    rintro _ rfl
    decide +kernel
  have same : bytes = forwarded := by
    have whole : (listening.outbound ++ bytes).toList = forwarded := cut _ wrote
    rwa [Array.toList_appendList] at whole
  subst same
  obtain ⟨next, taken, unread, _⟩ := follows halfway [7] .halfway
  have got : answer? (readMessage { halfway with inbound := forwarded ++ [7] }) =
      some ⟨6, 7, 18, 1, [2, 0, 1, 0x78]⟩ := by decide +kernel
  cases got.symm.trans (congrArg answer? taken)
  exact ⟨after, next, read, wrote, taken, unread⟩

end Endpoint
end RtmpRelay
