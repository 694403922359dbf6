import RtmpRelay.Flv.Error

/-! The head of an audio payload, and the decoder configuration that an AAC sequence header carries. -/

namespace RtmpRelay.Flv

inductive AudioCodec where
  | linearPcmPlatformEndian
  | adpcm
  | mp3
  | linearPcmLittleEndian
  | nellymoser16k
  | nellymoser8k
  | nellymoser
  | g711ALaw
  | g711MuLaw
  | aac
  | speex
  | mp38k
  | deviceSpecific
  | unknown (id : UInt8)
deriving DecidableEq

namespace AudioCodec

def ofId (id : UInt8) : AudioCodec :=
  match id.toNat with
  | 0 => .linearPcmPlatformEndian
  | 1 => .adpcm
  | 2 => .mp3
  | 3 => .linearPcmLittleEndian
  | 4 => .nellymoser16k
  | 5 => .nellymoser8k
  | 6 => .nellymoser
  | 7 => .g711ALaw
  | 8 => .g711MuLaw
  | 10 => .aac
  | 11 => .speex
  | 14 => .mp38k
  | 15 => .deviceSpecific
  | _ => .unknown id

def name : AudioCodec → String
  | .linearPcmPlatformEndian => "Linear PCM"
  | .adpcm => "ADPCM"
  | .mp3 => "MP3"
  | .linearPcmLittleEndian => "Linear PCM (LE)"
  | .nellymoser16k => "Nellymoser 16kHz"
  | .nellymoser8k => "Nellymoser 8kHz"
  | .nellymoser => "Nellymoser"
  | .g711ALaw => "G.711 A-law"
  | .g711MuLaw => "G.711 mu-law"
  | .aac => "AAC"
  | .speex => "Speex"
  | .mp38k => "MP3 8kHz"
  | .deviceSpecific => "Device Specific"
  | .unknown id => s!"Unknown ({id})"

end AudioCodec

/-- Only AAC says whether a packet is a sequence header (0) or raw data (1). -/
structure AudioTag where
  codec : AudioCodec
  soundRate : Nat
  sampleRate : Nat
  sampleSize : Nat
  channels : Nat
  aacPacketType : Option UInt8
deriving DecidableEq

namespace AudioTag

def isSequenceHeader (tag : AudioTag) : Bool :=
  tag.codec = .aac && tag.aacPacketType = some 0

def sampleRateOf : Nat → Nat
  | 0 => 5500
  | 1 => 11025
  | 2 => 22050
  | _ => 44100

/-- AAC is always signalled as 44 kHz stereo, whatever its configuration says. -/
def parse (payload : Bytes) : Except TagError AudioTag :=
  match payload with
  | [] => throw (.tooShort 1 0)
  | flags :: rest => do
    let bits := flags.toNat
    let codec := AudioCodec.ofId (UInt8.ofNat (bits / 16))
    let soundRate := bits / 4 % 4
    let stereo := bits % 2 = 1
    let tag : AudioTag := {
      codec
      soundRate
      sampleRate := sampleRateOf soundRate
      sampleSize := if bits / 2 % 2 = 0 then 8 else 16
      channels := if stereo then 2 else 1
      aacPacketType := none }
    if codec = .aac then
      if soundRate ≠ 3 then throw (.invalid (.aacSoundRate soundRate))
      if ¬stereo then throw (.invalid .aacMono)
      match rest with
      | [] => throw (.tooShort 2 1)
      | packetType :: _ =>
        if 1 < packetType then throw (.invalid (.aacPacketType packetType))
        return { tag with aacPacketType := some packetType }
    else if codec = .nellymoser ∧ stereo then throw (.invalid .nellymoserStereo)
    else return tag

end AudioTag

structure AacConfig where
  profile : String
  sampleRate : Option Nat
  channels : Nat
deriving DecidableEq

namespace AacConfig

def sampleRates : List Nat :=
  [96000, 88200, 64000, 48000, 44100, 32000, 24000, 22050, 16000, 12000, 11025, 8000, 7350]

def profileName : Nat → String
  | 1 => "AAC Main"
  | 2 => "AAC-LC"
  | 3 => "AAC SSR"
  | 4 => "AAC LTP"
  | 5 => "HE-AAC (SBR)"
  | 29 => "HE-AAC v2 (SBR+PS)"
  | other => s!"AAC Object Type {other}"

/-- Five bits of object type, four of sample rate index and four of channels. -/
def parse? : Bytes → Option AacConfig
  | first :: second :: _ =>
    let bits := first.toNat * 256 + second.toNat
    some ⟨profileName (bits / 2048), sampleRates[bits / 128 % 16]?, bits / 8 % 16⟩
  | _ => none

end AacConfig
end RtmpRelay.Flv
