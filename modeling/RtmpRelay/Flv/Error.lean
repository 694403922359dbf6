import RtmpRelay.Amf.Error
import RtmpRelay.Amf.Render

/-! Why the head of a media payload could not be read. -/

namespace RtmpRelay.Flv

inductive Fault where
  | aacSoundRate (got : Nat)
  | aacMono
  | aacPacketType (got : UInt8)
  | nellymoserStereo
  | frameType (got : UInt8)
  | avcPacketType (got : UInt8)
  | metadata (error : Amf.Error)
  | metadataName (got : Amf.Value)

inductive TagError where
  | tooShort (want got : Nat)
  | invalid (fault : Fault)

def Fault.message : Fault → String
  | .aacSoundRate got => s!"AAC sound rate must be 3, got {got}"
  | .aacMono => "AAC sound type must be stereo"
  | .aacPacketType got => s!"unknown AAC packet type {got}"
  | .nellymoserStereo => "Nellymoser sound type must be mono"
  | .frameType got => s!"unknown frame type {got}"
  | .avcPacketType got => s!"unknown AVC packet type {got}"
  | .metadata error => "metadata: " ++ error.message
  | .metadataName got => "metadata must start with a string, got " ++ got.plain

def TagError.message : TagError → String
  | .tooShort want got => s!"tag too short: want at least {want} bytes, got {got}"
  | .invalid fault => "invalid tag: " ++ fault.message

end RtmpRelay.Flv
