import RtmpRelay.Amf.Encode
import RtmpRelay.Error

/-! The commands that a client and the server exchange, as lists of values. -/

namespace RtmpRelay

/-- What a client says about itself when it connects. Missing properties have default values. -/
structure ConnectInfo where
  app : String
  flashVersion : String
  swfUrl : String
  tcUrl : String
  usesProxy : Bool
  audioCodecs : UInt32
  videoCodecs : UInt32
  videoFunction : UInt32
  pageUrl : String
  objectEncoding : Double
  connectionType : String
deriving DecidableEq

namespace ConnectInfo

def empty : ConnectInfo :=
  ⟨"", "", "", "", false, 0, 0, 0, "", Double.zero, ""⟩

/-- Older clients have a spelling of their own for the version property; it counts only where the common
one is missing. -/
def ofCommandObject (object : Amf.Value) : ConnectInfo :=
  let text (name : String) := ((object.property? name).bind Amf.Value.string?).getD ""
  let number (name : String) := ((object.property? name).bind Amf.Value.number?).getD Double.zero
  { app := text "app"
    flashVersion :=
      (((object.property? "flashVer").or (object.property? "flashver")).bind Amf.Value.string?).getD ""
    swfUrl := text "swfUrl"
    tcUrl := text "tcUrl"
    usesProxy := ((object.property? "fpad").bind Amf.Value.boolean?).getD false
    audioCodecs := (number "audioCodecs").toUInt32
    videoCodecs := (number "videoCodecs").toUInt32
    videoFunction := (number "videoFunction").toUInt32
    pageUrl := text "pageUrl"
    objectEncoding := number "objectEncoding"
    connectionType := text "type" }

end ConnectInfo

/-- What a client can ask for by name. -/
inductive Request where
  | connect
  | createStream
  | publish
  | play
  | close
deriving DecidableEq

/-- A stream can be given up under several names. -/
def Request.ofName? : String → Option Request
  | "connect" => some .connect
  | "createStream" => some .createStream
  | "publish" => some .publish
  | "play" => some .play
  | "deleteStream" | "closeStream" | "FCUnpublish" => some .close
  | _ => none

namespace Reply
open Amf

def serverVersion : String := "FMS/3,0,1,123"

def serverCapabilities : Nat := 31

def encode (values : List Value) : Except Error Bytes :=
  (Amf0.toBytes values).mapError .amf

def textObject (entries : List (String × String)) : Value :=
  .ofEntries (entries.map fun (name, text) => (name, .string text))

def connectResult (transaction objectEncoding : Double) : Except Error Bytes :=
  encode [
    .string "_result",
    .number transaction,
    .ofEntries [("fmsVer", .string serverVersion), ("capabilities", .ofNat serverCapabilities)],
    .ofEntries [
      ("level", .string "status"),
      ("code", .string "NetConnection.Connect.Success"),
      ("description", .string "Connection succeeded."),
      ("objectEncoding", .number objectEncoding)]]

def createStreamResult (transaction : Double) (streamId : UInt32) : Except Error Bytes :=
  encode [.string "_result", .number transaction, .null, .ofNat streamId.toNat]

def onStatus (code description : String) : Except Error Bytes :=
  encode [
    .string "onStatus",
    .ofNat 0,
    .null,
    textObject [("level", "status"), ("code", code), ("description", description)]]

def publishStart : Except Error Bytes :=
  onStatus "NetStream.Publish.Start" "Start publishing."

def playReset : Except Error Bytes :=
  onStatus "NetStream.Play.Reset" "Playing and resetting stream."

def playStart : Except Error Bytes :=
  onStatus "NetStream.Play.Start" "Started playing stream."

end Reply
end RtmpRelay
