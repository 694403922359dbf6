import RtmpRelay.Flv.Error
import RtmpRelay.Protocol

/-! Everything that can end a request or a connection, told apart by cause. -/

namespace RtmpRelay

/-- Why the transport failed. The named kinds are those of a peer that went away. -/
inductive TransportFault where
  | unexpectedEnd
  | connectionReset
  | connectionAborted
  | brokenPipe
  | other
deriving DecidableEq

/-- A rule of the protocol that the peer, or a caller, did not keep. -/
inductive Violation where
  | chunkFormat (code : UInt8)
  | chunkStream (id : UInt32)
  | messageLength (bytes : Nat)
  | handshakeRepeated
  | handshakeMissing
  | controlChunkStream (typeId : UInt8) (chunkStream : UInt32)
  | controlMessageStream (typeId : UInt8) (streamId : UInt32)
  | controlLength (typeId : UInt8) (want got : Nat)
  | chunkSize (size : UInt32)
  | emptyCommand
  | commandName (got : Amf.Value)
  | transaction (command : String) (want : Nat) (got : Option Amf.Value)
  | noCommandObject
  | noStreamName (command : String)

namespace Violation

def message : Violation → String
  | .chunkFormat code => s!"invalid chunk type {code}"
  | .chunkStream id => s!"chunk stream id {id} cannot be encoded"
  | .messageLength bytes => s!"message of {bytes} bytes exceeds the 24-bit length field"
  | .handshakeRepeated => "handshake already performed"
  | .handshakeMissing => "read_header before handshake"
  | .controlChunkStream typeId id => s!"protocol control message type {typeId} on chunk stream {id}"
  | .controlMessageStream typeId id => s!"protocol control message type {typeId} on message stream {id}"
  | .controlLength typeId want got =>
    s!"protocol control message type {typeId} must carry {want} bytes, got {got}"
  | .chunkSize size => s!"invalid chunk size {size}"
  | .emptyCommand => "empty command message"
  | .commandName got => "command name must be a string, got " ++ got.plain
  | .transaction command want got =>
    command ++ s!" transaction id must be {want}, got " ++ Amf.Value.preciseOption got
  | .noCommandObject => "connect without command object"
  | .noStreamName command => command ++ " without stream name"

end Violation

inductive HandshakeFault where
  | version (got : UInt8)
  | echo
deriving DecidableEq

def HandshakeFault.message : HandshakeFault → String
  | .version got => s!"unsupported protocol version {got}"
  | .echo => "C2 random does not echo S1 random"

inductive Error where
  | transport (fault : TransportFault)
  | amf (error : Amf.Error)
  | tag (error : Flv.TagError)
  | alreadyPublishing (key : String)
  | violation (cause : Violation)
  | handshake (fault : HandshakeFault)
  | unsupportedMessage (typeId : UInt8)

namespace Error

/-- What went wrong, in words. The words for a transport fault are the transport's own. -/
def message : Error → String
  | .transport _ => "I/O error"
  | .amf error => "AMF error: " ++ error.message
  | .tag error => "FLV tag error: " ++ error.message
  | .alreadyPublishing key => "stream " ++ key ++ " already has a publisher"
  | .violation cause => "protocol violation: " ++ cause.message
  | .handshake fault => "handshake failed: " ++ fault.message
  | .unsupportedMessage typeId => s!"unsupported: message type {typeId}"

/-- Whether the peer went away instead of sending bad data. -/
def isDisconnect : Error → Bool
  | .transport fault => fault ≠ .other
  | _ => false

end Error
end RtmpRelay
