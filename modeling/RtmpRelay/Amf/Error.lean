import RtmpRelay.Text.Hex

/-! Why a value could not be read or written. -/

namespace RtmpRelay.Amf

/-- Values may be nested this deep; anything deeper is refused in either encoding. -/
def maxDepth : Nat := 64

inductive Feature where
  | reference
  | externalizable
deriving DecidableEq

/-- Something too long for the width of its length field. -/
inductive Oversize where
  | key (bytes : Nat)
  | string (bytes : Nat)
  | ecmaArray (entries : Nat)
  | strictArray (items : Nat)
deriving DecidableEq

inductive Error where
  | unexpectedEnd
  | unsupportedType (marker : UInt8)
  | notImplemented (feature : Feature)
  | invalidMarker (marker : UInt8)
  | invalidReference (index : Nat)
  | nestingTooDeep
  | unencodable (cause : Oversize)
deriving DecidableEq

def Feature.name : Feature → String
  | .reference => "reference type"
  | .externalizable => "externalizable AMF3 objects"

def Oversize.message : Oversize → String
  | .key bytes => s!"key of {bytes} bytes"
  | .string bytes => s!"string of {bytes} bytes"
  | .ecmaArray entries => s!"ECMA array of {entries} entries"
  | .strictArray items => s!"array of {items} items"

def Error.message : Error → String
  | .unexpectedEnd => "unexpected end of AMF data"
  | .unsupportedType marker => "unsupported AMF type marker 0x" ++ Text.hexByte marker
  | .notImplemented feature => "AMF " ++ feature.name ++ " is not implemented"
  | .invalidMarker marker => "invalid AMF marker 0x" ++ Text.hexByte marker
  | .invalidReference index => s!"invalid AMF3 reference index {index}"
  | .nestingTooDeep => s!"AMF values nested deeper than {maxDepth} levels"
  | .unencodable cause => "value cannot be encoded as AMF0: " ++ cause.message

end RtmpRelay.Amf
