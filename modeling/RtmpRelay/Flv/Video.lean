import RtmpRelay.Flv.Error

/-! The head of a video payload, and the decoder configuration that an AVC sequence header carries. -/

namespace RtmpRelay.Flv

inductive VideoCodec where
  | h263
  | screen
  | vp6
  | vp6Alpha
  | screenV2
  | avc
  | unknown (id : UInt8)
deriving DecidableEq

namespace VideoCodec

def ofId (id : UInt8) : VideoCodec :=
  match id.toNat with
  | 2 => .h263
  | 3 => .screen
  | 4 => .vp6
  | 5 => .vp6Alpha
  | 6 => .screenV2
  | 7 => .avc
  | _ => .unknown id

def name : VideoCodec → String
  | .h263 => "Sorenson H.263"
  | .screen => "Screen Video"
  | .vp6 => "VP6"
  | .vp6Alpha => "VP6 Alpha"
  | .screenV2 => "Screen Video V2"
  | .avc => "H.264/AVC"
  | .unknown id => s!"Unknown ({id})"

end VideoCodec

inductive FrameType where
  | keyframe
  | inter
  | disposableInter
  | generatedKeyframe
  | videoInfo
  | unknown (id : UInt8)
deriving DecidableEq

def FrameType.ofId (id : UInt8) : FrameType :=
  match id.toNat with
  | 1 => .keyframe
  | 2 => .inter
  | 3 => .disposableInter
  | 4 => .generatedKeyframe
  | 5 => .videoInfo
  | _ => .unknown id

/-- Only AVC has a packet type: a sequence header (0), a picture (1) or the end of the sequence (2). The
composition time is zero unless the packet is a picture. -/
structure VideoTag where
  frameType : FrameType
  codec : VideoCodec
  avcPacketType : Option UInt8
  compositionTime : Int
deriving DecidableEq

namespace VideoTag

def isKeyframe (tag : VideoTag) : Bool :=
  tag.frameType = .keyframe || tag.frameType = .generatedKeyframe

def isSequenceHeader (tag : VideoTag) : Bool :=
  tag.frameType = .keyframe && tag.avcPacketType = some 0

/-- The two's complement reading of three bytes. -/
def signed24 (number : Nat) : Int :=
  if number < 0x800000 then number else (number : Int) - 0x1000000

def parse (payload : Bytes) : Except TagError VideoTag :=
  match payload with
  | [] => throw (.tooShort 1 0)
  | flags :: rest => do
    let frameType := FrameType.ofId (UInt8.ofNat (flags.toNat / 16))
    let codec := VideoCodec.ofId (UInt8.ofNat (flags.toNat % 16))
    if let .unknown id := frameType then throw (.invalid (.frameType id))
    let tag : VideoTag := ⟨frameType, codec, none, 0⟩
    if codec = .avc ∧ frameType ≠ .videoInfo then
      match rest with
      | packetType :: high :: middle :: low :: _ =>
        if 2 < packetType then throw (.invalid (.avcPacketType packetType))
        let time := if packetType = 1 then signed24 (Bytes.beValue [high, middle, low]) else 0
        return ⟨frameType, codec, some packetType, time⟩
      | _ => throw (.tooShort 5 (rest.length + 1))
    else return tag

end VideoTag

structure AvcConfig where
  profile : String
  level : String
deriving DecidableEq

namespace AvcConfig

def profileName : Nat → String
  | 66 => "Baseline"
  | 77 => "Main"
  | 88 => "Extended"
  | 100 => "High"
  | 110 => "High 10"
  | 122 => "High 4:2:2"
  | 244 => "High 4:4:4 Predictive"
  | other => s!"Profile {other}"

/-- A version byte, the profile, its compatibility flags and ten times the level. -/
def parse? : Bytes → Option AvcConfig
  | _ :: profile :: _ :: level :: _ =>
    some ⟨profileName profile.toNat, toString (level.toNat / 10) ++ "." ++ toString (level.toNat % 10)⟩
  | _ => none

end AvcConfig
end RtmpRelay.Flv
