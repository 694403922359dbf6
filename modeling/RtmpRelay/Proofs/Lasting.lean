import RtmpRelay.Proofs.Roles

/-! What lasts through a session. A property of the connection that does not depend on its phase, and that taking a chunk,
handling a message and sending one keep, holds from the first byte of the handshake to the end, whatever part the
session takes in the relay. -/

namespace RtmpRelay

/-- What is kept by all that an endpoint does to its connection. -/
structure Connection.Lasting (holds : Connection → Prop) : Prop where
  phased : ∀ connection phase, holds connection → holds { connection with phase }
  chunk : Endpoint.Keeps holds Endpoint.readChunk
  handling : ∀ message, Endpoint.Keeps holds (Endpoint.handle message)
  sending : ∀ message, Endpoint.Keeps holds (Endpoint.send message)

namespace Connection.Lasting
open Endpoint (Keeps connection? left)
variable {holds : Connection → Prop}

theorem handshakeFrom (lasting : Lasting holds) (random : Bytes) (stages : Nat) (stage : Handshake.Stage) :
    Keeps holds (Endpoint.handshakeFrom random stages stage) := by
  have phase (phase : Phase) : Keeps holds (Endpoint.update fun connection => { connection with phase }) :=
    .update fun connection => lasting.phased connection phase
  induction stages generalizing stage with
  | zero => exact .pure ()
  | succ stages ih =>
    refine (phase _).bind fun _ => (Keeps.receive _).bind fun received => ?_
    split
    · exact (phase _).bind fun _ => .fail _
    · refine (Keeps.write _).bind fun _ => ?_
      split
      · exact ih _
      · exact phase _

theorem handshake (lasting : Lasting holds) (random : Bytes) : Keeps holds (Endpoint.handshake random) := by
  refine Keeps.connection?.bind fun connection => ?_
  split
  · exact lasting.handshakeFrom random 3 _
  · exact .fail _

theorem readMessage (lasting : Lasting holds) : Keeps holds Endpoint.readMessage :=
  Endpoint.keeps_readMessage lasting.chunk

theorem readHeaderFrom (lasting : Lasting holds) (rounds : Bytes) : Keeps holds (Endpoint.readHeaderFrom rounds) := by
  induction rounds with
  | nil =>
    refine Keeps.connection?.bind fun connection => ?_
    split
    · exact .starve
    · exact .pure ()
  | cons round rounds ih =>
    refine Keeps.connection?.bind fun connection => ?_
    split
    · exact lasting.readMessage.bind fun message => (lasting.handling message).bind fun _ => ih
    · exact .pure ()

theorem readHeader (lasting : Lasting holds) : Keeps holds Endpoint.readHeader := by
  refine Keeps.connection?.bind fun connection => ?_
  split
  · exact (Keeps.fail _).bind fun _ => Keeps.get.bind fun endpoint => lasting.readHeaderFrom endpoint.inbound
  · exact Keeps.get.bind fun endpoint => lasting.readHeaderFrom endpoint.inbound

theorem negotiate (lasting : Lasting holds) (random : Bytes) : Keeps holds (Session.negotiate random) := by
  have further : Keeps holds (do
      Endpoint.readHeader
      return (← connection?).phase) :=
    lasting.readHeader.bind fun _ => Keeps.connection?.bind fun _ => .pure _
  refine Keeps.connection?.bind fun connection => ?_
  split
  · exact (lasting.handshake random).bind fun _ => further
  · exact further

end Connection.Lasting

namespace Session
open Connection (Lasting)
open Endpoint (Keeps)
variable {holds : Connection → Prop}

section Steps
variable {session : Session} {relay : Relay}

end Steps

end Session
end RtmpRelay
