import RtmpRelay.Proofs.Exchange
import RtmpRelay.Proofs.Forwarding

/-! What a publisher's media comes to. Each message is worth a packet or nothing, which its type and its payload decide
alone, and calls for packets give the packets of the messages in the order in which these are completed. All other
messages are handled on the way, each before the next chunk is looked at. No payload makes a call fail. -/

namespace RtmpRelay

namespace Message

/-- Sound, pictures and metadata. -/
def isMedia (message : Message) : Bool :=
  message.typeId ∈ [8, 9, 15, 18]

/-- The packet with a payload of the message. There is a tag exactly if the head of the payload can be read. -/
def carried (message : Message) (kind : PacketKind) (payload : Bytes) : Packet :=
  ⟨kind, message.streamId, message.timestamp, payload, (Flv.Tag.parse kind payload).toOption.join⟩

/-- Metadata has to start with a text. -/
def described (message : Message) (payload : Bytes) : Option Packet :=
  match Amf.Amf0.decode payload with
  | .ok (.string _, _) => some (message.carried .metadata payload)
  | _ => none

/-- What the message is worth to the players. In the newer of its two types metadata has one byte in front. -/
def packet? (message : Message) : Option Packet :=
  if message.typeId = 8 then some (message.carried .audio message.payload)
  else if message.typeId = 9 then some (message.carried .video message.payload)
  else if message.typeId = 15 then message.described (message.payload.drop 1)
  else if message.typeId = 18 then message.described message.payload
  else none

variable {message : Message}

theorem described_eq (message : Message) (payload : Bytes) :
    message.described payload =
      if (Flv.metadataName payload).toOption.isNone then none else some (message.carried .metadata payload) := by
  rw [described, Flv.metadataName]
  cases Amf.Amf0.decode payload with
  | error error => rfl
  | ok found =>
    obtain ⟨value, size⟩ := found
    cases value <;> rfl

theorem packet?_other (other : message.isMedia = false) : message.packet? = none := by
  simp only [isMedia, List.mem_cons, List.not_mem_nil, or_false, decide_eq_false_iff_not, not_or] at other
  obtain ⟨audio, video, newer, older⟩ := other
  rw [packet?, if_neg audio, if_neg video, if_neg newer, if_neg older]

end Message

namespace Endpoint
open Message (Wire)
open Connection (Exchange)

theorem media_eq (message : Message) :
    media message = if message.isMedia then message.packet?.elim .nameless .packet else .other := by
  have metadata (body : Bytes) :
      (if PacketKind.metadata = .metadata ∧ (Flv.metadataName body).toOption.isNone then Media.nameless
        else .packet (message.carried .metadata body)) = (message.described body).elim .nameless .packet := by
    rw [Message.described_eq]
    cases (Flv.metadataName body).toOption <;> rfl
  obtain ⟨chunkStream, timestamp, typeId, streamId, payload⟩ := message
  by_cases media : Message.isMedia ⟨chunkStream, timestamp, typeId, streamId, payload⟩ = true
  · rw [if_pos media]
    simp only [Message.isMedia, List.mem_cons, List.not_mem_nil, or_false, decide_eq_true_eq] at media
    rcases media with rfl | rfl | rfl | rfl
    · rfl
    · rfl
    · exact metadata (payload.drop 1)
    · exact metadata payload
  · rw [if_neg media]
    cases known : PacketKind.ofMessageType? typeId with
    | none => simp only [Endpoint.media, known]
    | some kind =>
      refine absurd ?_ media
      rcases PacketKind.of_ofMessageType? known with ⟨_, rfl⟩ | ⟨_, rfl⟩ | ⟨_, rfl | rfl⟩ <;> rfl

theorem respond_media {message : Message} (media : message.isMedia = true) (connection : Connection) :
    connection.respond message = .ok (connection, []) := by
  obtain ⟨chunkStream, timestamp, typeId, streamId, payload⟩ := message
  simp only [Message.isMedia, List.mem_cons, List.not_mem_nil, or_false, decide_eq_true_eq] at media
  rcases media with rfl | rfl | rfl | rfl <;> rfl

/-- How a call for a packet ends. The messages before the last one were worth nothing, and none of them closed the
stream. -/
inductive Surfaces (before : Endpoint) : EStateM.Result Stop Endpoint (Option Packet) → Prop where
  | packet {read : Bytes} {skipped answers : List Message} {message : Message} {packet : Packet} {next : Endpoint}
      (converses : Converses before read (skipped ++ [message]) answers (some message) next)
      (silent : ∀ earlier ∈ skipped, earlier.packet? = none) (worth : message.packet? = some packet)
      (isOpen : next.connection.phase ≠ .closed) : Surfaces before (.ok (some packet) next)
  | closed {read : Bytes} {skipped answers : List Message} {message : Message} {middle next : Endpoint}
      (converses : Converses before read (skipped ++ [message]) answers (some message) middle)
      (silent : ∀ earlier ∈ skipped, earlier.packet? = none) (other : message.isMedia = false)
      (handled : handle message middle = .ok () next) (closed : next.connection.phase = .closed)
      (unread : before.inbound = read ++ next.inbound) : Surfaces before (.ok none next)
  | refused {read : Bytes} {skipped answers : List Message} {message : Message} {middle next : Endpoint} {error : Error}
      (converses : Converses before read (skipped ++ [message]) answers (some message) middle)
      (silent : ∀ earlier ∈ skipped, earlier.packet? = none) (other : message.isMedia = false)
      (refused : handle message middle = .error (.failed error) next) : Surfaces before (.error (.failed error) next)
  | starved {read : Bytes} {skipped answers : List Message} {next : Endpoint}
      (converses : Converses before read skipped answers none next)
      (silent : ∀ earlier ∈ skipped, earlier.packet? = none) (isOpen : next.connection.phase ≠ .closed)
      (missing : next.connection.nextChunk next.inbound = none) : Surfaces before (.error next.starvation next)

section Calling
variable {endpoint middle next : Endpoint} {read : Bytes} {heard answers : List Message} {message : Message}

theorem Converses.media (before : Converses endpoint read heard answers (some message) middle)
    (media : message.isMedia = true) : Converses endpoint read heard answers none middle := by
  obtain ⟨exchange, inbound, ended, outbound⟩ := before
  have answered := Exchange.answer exchange (respond_media media middle.connection)
  rw [List.append_nil] at answered
  exact ⟨answered, inbound, ended, outbound⟩

theorem Converses.of_handle (before : Converses endpoint read heard answers (some message) middle)
    (handled : Endpoint.handle message middle = .ok () next) :
    ∃ replies, Converses endpoint read heard (answers ++ replies) none next := by
  rcases handle_answers message middle with ⟨_, _, failed⟩ | ⟨_, replies, sent, bytes, accepted, _, wire, ran⟩
  · cases handled.symm.trans failed
  rcases ran with ⟨rfl, went⟩ | ⟨_, failed⟩
  · cases handled.symm.trans went
    exact ⟨sent, before.handle accepted wire⟩
  · cases handled.symm.trans failed

/-- A message that is worth nothing, and a call from there on. -/
theorem Surfaces.skip {result : EStateM.Result Stop Endpoint (Option Packet)}
    (converses : Converses endpoint read [message] answers none middle) (worthless : message.packet? = none)
    (surfaces : Surfaces middle result) : Surfaces endpoint result := by
  have silent {skipped : List Message} (others : ∀ earlier ∈ skipped, earlier.packet? = none) :
      ∀ earlier ∈ message :: skipped, earlier.packet? = none :=
    List.forall_mem_cons.mpr ⟨worthless, others⟩
  cases surfaces with
  | packet further others worth isOpen =>
    have joined := converses.trans further
    rw [← List.append_assoc] at joined
    exact .packet joined (silent others) worth isOpen
  | closed further others other handled closed unread =>
    have joined := converses.trans further
    rw [← List.append_assoc] at joined
    refine .closed joined (silent others) other handled closed ?_
    rw [converses.inbound, unread, List.append_assoc]
  | refused further others other refused =>
    have joined := converses.trans further
    rw [← List.append_assoc] at joined
    exact .refused joined (silent others) other refused
  | starved further others isOpen missing => exact .starved (converses.trans further) (silent others) isOpen missing

theorem readMedia_of_message (taken : readMessage endpoint = .ok message middle) :
    (∃ packet, message.packet? = some packet ∧ message.isMedia = true ∧
      readMedia endpoint = .ok (some packet) { middle with events := middle.events.push (.packet packet) }) ∨
    (message.packet? = none ∧ message.isMedia = true ∧ readMedia endpoint = .ok none middle) ∨
    (message.isMedia = false ∧ readMedia endpoint = (do handle message; return none : Action (Option Packet)) middle) := by
  have looked := media_eq message
  have unfolded : readMedia endpoint = _ := bind_ok taken
  rw [unfolded]
  cases media : message.isMedia with
  | false =>
    rw [media, if_neg Bool.false_ne_true] at looked
    rw [looked]
    exact .inr (.inr ⟨rfl, rfl⟩)
  | true =>
    rw [media, if_pos rfl] at looked
    cases worth : message.packet? with
    | none =>
      rw [looked, worth]
      exact .inr (.inl ⟨rfl, rfl, rfl⟩)
    | some packet =>
      rw [looked, worth]
      exact .inl ⟨packet, rfl, rfl, rfl⟩

theorem readPacketFrom_closed (rounds : Bytes) (closed : endpoint.connection.phase = .closed) :
    readPacketFrom rounds endpoint = .ok none endpoint := by
  cases rounds <;> rw [readPacketFrom, bind_connection?, if_pos closed] <;> rfl

theorem readPacketFrom_surfaces (rounds : Bytes) : ∀ endpoint : Endpoint, endpoint.inbound.length ≤ rounds.length →
    endpoint.connection.phase ≠ .closed → Surfaces endpoint (readPacketFrom rounds endpoint) := by
  induction rounds with
  | nil =>
    intro endpoint enough isOpen
    have empty : endpoint.inbound = [] := List.eq_nil_of_length_eq_zero (Nat.le_zero.mp enough)
    rw [readPacketFrom, bind_connection?, if_neg isOpen]
    rw [show (starve : Action (Option Packet)) endpoint = _ from starve_eq endpoint]
    exact .starved (.refl endpoint) (List.forall_mem_nil _) isOpen (by rw [empty]; rfl)
  | cons round rounds ih =>
    intro endpoint enough isOpen
    rw [List.length_cons] at enough
    rw [readPacketFrom, bind_connection?, if_neg isOpen]
    rcases readMessage_converses endpoint isOpen with
      ⟨message, middle, read, acknowledgements, taken, converses, phase⟩ |
      ⟨last, read, acknowledgements, stopped, converses, phase, missing⟩
    · have positive := List.length_pos_iff.mpr (converses.exchange.nonempty (List.cons_ne_nil message []))
      have shorter {later : Endpoint} (inbound : endpoint.inbound = read ++ later.inbound) :
          later.inbound.length ≤ rounds.length := by
        have counted := congrArg List.length inbound
        rw [List.length_append] at counted
        omega
      have still : middle.connection.phase ≠ .closed := phase ▸ isOpen
      rcases readMedia_of_message taken with ⟨packet, worth, _, ran⟩ | ⟨worthless, media, ran⟩ | ⟨other, ran⟩
      · rw [bind_ok ran]
        have observed : Converses endpoint read ([] ++ [message]) acknowledgements (some message)
            { middle with events := middle.events.push (.packet packet) } :=
          ⟨converses.exchange, converses.inbound, converses.ended, converses.outbound⟩
        exact .packet observed (List.forall_mem_nil _) worth still
      · rw [bind_ok ran]
        exact .skip (converses.media media) worthless (ih middle (shorter converses.inbound) still)
      · cases handled : handle message middle with
        | error stop last =>
          obtain ⟨error, rfl⟩ := handle_fails handled
          rw [bind_error (ran.trans (bind_error handled))]
          exact .refused converses (List.forall_mem_nil _) other handled
        | ok value next =>
          rw [bind_ok (ran.trans (bind_ok handled))]
          obtain ⟨replies, answered⟩ := converses.of_handle handled
          by_cases closed : next.connection.phase = .closed
          · change Surfaces endpoint (readPacketFrom rounds next)
            rw [readPacketFrom_closed rounds closed]
            exact .closed converses (List.forall_mem_nil _) other handled closed answered.inbound
          · exact .skip answered (Message.packet?_other other) (ih next (shorter answered.inbound) closed)
    · have stays : readMedia endpoint = .error last.starvation last := bind_error stopped
      rw [bind_error stays]
      exact .starved converses (List.forall_mem_nil _) (phase ▸ isOpen) missing

end Calling

/-- Calls for packets, one after another, while bytes come in: those that came in, and the packets. -/
inductive Polls (start : Endpoint) : Bytes → List Packet → Endpoint → Prop where
  | start : Polls start [] [] start
  | feed {fed packets endpoint} (polls : Polls start fed packets endpoint) (bytes : Bytes) :
      Polls start (fed ++ bytes) packets (endpoint.feed bytes)
  | close {fed packets endpoint} (polls : Polls start fed packets endpoint) : Polls start fed packets endpoint.close
  | waiting {fed packets endpoint next} (polls : Polls start fed packets endpoint)
      (stopped : readPacket endpoint = .error .waiting next) : Polls start fed packets next
  | packet {fed packets endpoint packet next} (polls : Polls start fed packets endpoint)
      (read : readPacket endpoint = .ok (some packet) next) : Polls start fed (packets ++ [packet]) next

theorem readPacket_surfaces (endpoint : Endpoint) (isOpen : endpoint.connection.phase ≠ .closed) :
    Surfaces endpoint (readPacket endpoint) :=
  readPacketFrom_surfaces endpoint.inbound endpoint (Nat.le_refl _) isOpen

section Inverted
variable {before next : Endpoint}

/-- A call that returns a packet has taken its message and those before it. -/
theorem Surfaces.of_packet {packet : Packet} (surfaces : Surfaces before (.ok (some packet) next)) :
    ∃ read heard answers, Converses before read heard answers none next ∧ heard.filterMap Message.packet? = [packet] ∧
      next.connection.phase ≠ .closed := by
  cases surfaces with
  | @packet read skipped answers message _ _ converses silent worth isOpen =>
    have media : message.isMedia = true := by
      rw [← Bool.not_eq_false]
      intro other
      rw [Message.packet?_other other] at worth
      cases worth
    refine ⟨read, skipped ++ [message], answers, converses.media media, ?_, isOpen⟩
    rw [List.filterMap_append, List.filterMap_eq_nil_iff.mpr silent, List.nil_append, List.filterMap_cons_some worth,
      List.filterMap_nil]

/-- A call that has to wait has taken messages that are worth nothing. -/
theorem Surfaces.of_waiting {result : EStateM.Result Stop Endpoint (Option Packet)} (surfaces : Surfaces before result)
    (waits : result = .error .waiting next) :
    ∃ read heard answers, Converses before read heard answers none next ∧ heard.filterMap Message.packet? = [] ∧
      next.connection.phase ≠ .closed := by
  cases surfaces with
  | packet | closed | refused => cases waits
  | @starved read skipped answers last converses silent isOpen missing =>
    have same : last = next := (EStateM.Result.error.inj waits).2
    exact same ▸ ⟨read, skipped, answers, converses, List.filterMap_eq_nil_iff.mpr silent, isOpen⟩

end Inverted

/-- What has come of an endpoint by calls for packets. -/
structure Polled (start : Endpoint) (fed : Bytes) (packets : List Packet) (read : Bytes) (heard answers : List Message)
    (endpoint : Endpoint) : Prop where
  inbound : start.inbound ++ fed = read ++ endpoint.inbound
  exchange : Exchange start.connection read heard answers none endpoint.connection
  isOpen : endpoint.connection.phase ≠ .closed
  packets : packets = heard.filterMap Message.packet?
  outbound : ∃ bytes : Bytes, endpoint.outbound = start.outbound ++ bytes ∧
    Wire start.connection.outChunkSize answers bytes endpoint.connection.outChunkSize

theorem Polled.converses {start endpoint next : Endpoint} {fed read further : Bytes} {packets more : List Packet}
    {heard others answers replies : List Message} (polled : Polled start fed packets read heard answers endpoint)
    (converses : Converses endpoint further others replies none next) (worth : others.filterMap Message.packet? = more)
    (isOpen : next.connection.phase ≠ .closed) :
    Polled start fed (packets ++ more) (read ++ further) (heard ++ others) (answers ++ replies) next := by
  refine ⟨?_, polled.exchange.trans converses.exchange, isOpen, ?_, Wire.further polled.outbound converses.outbound⟩
  · rw [polled.inbound, converses.inbound, List.append_assoc]
  · rw [List.filterMap_append, ← polled.packets, worth]

theorem Polls.polled {start endpoint : Endpoint} {fed : Bytes} {packets : List Packet}
    (isOpen : start.connection.phase ≠ .closed) (polls : Polls start fed packets endpoint) :
    ∃ read heard answers, Polled start fed packets read heard answers endpoint := by
  induction polls with
  | start => exact ⟨[], [], [], List.append_nil _, .start, isOpen, rfl, [], Array.appendList_nil.symm, .nil⟩
  | feed polls bytes ih =>
    obtain ⟨read, heard, answers, inbound, exchange, still, packets, outbound⟩ := ih
    refine ⟨read, heard, answers, ?_, exchange, still, packets, outbound⟩
    rw [← List.append_assoc, inbound, List.append_assoc]
    rfl
  | close polls ih =>
    obtain ⟨read, heard, answers, inbound, exchange, still, packets, outbound⟩ := ih
    exact ⟨read, heard, answers, inbound, exchange, still, packets, outbound⟩
  | waiting polls stopped ih =>
    obtain ⟨read, heard, answers, polled⟩ := ih
    obtain ⟨further, others, replies, converses, worth, still⟩ :=
      (readPacket_surfaces _ polled.isOpen).of_waiting stopped
    have later := polled.converses converses worth still
    rw [List.append_nil] at later
    exact ⟨_, _, _, later⟩
  | packet polls read ih =>
    obtain ⟨_, _, _, polled⟩ := ih
    have surfaces := readPacket_surfaces _ polled.isOpen
    rw [read] at surfaces
    obtain ⟨further, others, replies, converses, worth, still⟩ := surfaces.of_packet
    exact ⟨_, _, _, polled.converses converses worth still⟩

/-- The packets of any number of calls are what the messages of the stream are worth, in the order in which it completes
them, while all messages that are none of the media are handled at their places. The next call goes on from there: to the
next packet, up to the message that closes the stream or is refused, or to the end of what has come in. There is one such
order only, for whatever else is said over the same stream is a part of it or goes on from it. -/
theorem media_surfaces {start endpoint : Endpoint} {fed : Bytes} {packets : List Packet}
    (isOpen : start.connection.phase ≠ .closed) (polls : Polls start fed packets endpoint) :
    ∃ read heard answers, start.inbound ++ fed = read ++ endpoint.inbound ∧
      Exchange start.connection read heard answers none endpoint.connection ∧
      endpoint.connection.phase ≠ .closed ∧
      packets = heard.filterMap Message.packet? ∧
      (∃ bytes : Bytes, endpoint.outbound = start.outbound ++ bytes ∧
        Wire start.connection.outChunkSize answers bytes endpoint.connection.outChunkSize) ∧
      Surfaces endpoint (readPacket endpoint) ∧
      ∀ others messages replies pending connection rest,
        Exchange start.connection others messages replies pending connection →
        others ++ rest = start.inbound ++ fed → heard <+: messages ∨ messages <+: heard := by
  obtain ⟨read, heard, answers, polled⟩ := polls.polled isOpen
  refine ⟨read, heard, answers, polled.inbound, polled.exchange, polled.isOpen, polled.packets, polled.outbound,
    readPacket_surfaces endpoint polled.isOpen, ?_⟩
  intro others messages replies pending connection rest other whole
  exact (polled.exchange.comparable other (polled.inbound.symm.trans whole.symm)).imp And.left And.left

/-- A publisher after its request. -/
def publishing : Endpoint :=
  { Endpoint.new .standard with connection := { Connection.new .standard with phase := .publishing } }

/-- Sound, metadata without a name, the command "closeStream" and one more byte. -/
def lastMessages : Bytes :=
  [4, 0, 0, 0, 0, 0, 2, 8, 1, 0, 0, 0, 0xaf, 1] ++ [4, 0, 0, 0, 0, 0, 1, 18, 1, 0, 0, 0, 5] ++
    [3, 0, 0, 0, 0, 0, 14, 20, 0, 0, 0, 0, 2, 0, 11, 0x63, 0x6c, 0x6f, 0x73, 0x65, 0x53, 0x74, 0x72, 0x65, 0x61, 0x6d] ++ [7]

def sound : Packet :=
  .ofPayload .audio 1 0 [0xaf, 1]

theorem ok_of_answer? {α : Type} {result : EStateM.Result Stop Endpoint α} {value : α}
    (answered : answer? result = some value) : result = .ok value (left result) := by
  obtain ⟨after, rfl⟩ := of_answer? answered
  rfl

/-- The sound is a packet, the metadata is not, and behind the command nothing is taken. -/
theorem last_media_surfaces :
    publishing.connection.phase ≠ .closed ∧ ∃ endpoint next, Polls publishing lastMessages [sound] endpoint ∧
      readPacket endpoint = .ok none next ∧ next.inbound = [7] ∧
      ∃ heard : List Message, [sound] = heard.filterMap Message.packet? := by
  have isOpen : publishing.connection.phase ≠ .closed := by decide
  have read := ok_of_answer? (show answer? (readPacket (publishing.feed lastMessages)) = some (some sound) by
    decide +kernel)
  have closed := ok_of_answer? (show answer? (readPacket (left (readPacket (publishing.feed lastMessages)))) = some none by
    decide +kernel)
  have unread : (left (readPacket (left (readPacket (publishing.feed lastMessages))))).inbound = [7] := by
    decide +kernel
  have polls := Polls.packet (.feed .start lastMessages) read
  obtain ⟨_, heard, _, _, _, _, packets, _, _⟩ := media_surfaces isOpen polls
  exact ⟨isOpen, _, _, polls, closed, unread, heard, packets⟩

end Endpoint
end RtmpRelay
