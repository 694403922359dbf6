import RtmpRelay.CommandLine
import RtmpRelay.Session

/-!
Serves one client, whose bytes come in on standard input and go out on standard output. Listening on the
address and starting one server for each client is left to the program's environment.
-/

namespace RtmpRelay.Main

def usage : String :=
  "Usage: rtmp-relay [OPTIONS] <INTERFACE> <PORT>\n\n" ++
  "Options:\n" ++
  "      --chunk-size <SIZE>       chunk size announced to clients [1 to 2147483647]\n" ++
  "      --window-ack-size <SIZE>  acknowledgement window and bandwidth announced on connect\n" ++
  "      --sink-buffer <PACKETS>   packets queued for each player before packets are lost\n" ++
  "      --log-level <FILTER>      what to log\n" ++
  "  -h, --help                    print this text\n" ++
  "  -V, --version                 print the version\n"

def faultText : CommandLine.Fault → String
  | .missingArgument => "an interface and a port are required"
  | .invalidValue => "a value is out of range"
  | .missingValue => "an option has no value"
  | .unknownArgument => "an argument is not understood"
  | .repeatedOption => "an option is given twice"
  | .needlessValue => "an option takes no value"
  | .helpRequested => usage
  | .versionRequested => "rtmp-relay 0.2.0"

/-- Bytes are read in pieces of at most this size. -/
def pieceSize : USize := 65536

partial def serve (input output : IO.FS.Stream) (random : Bytes) (session : Session) (relay : Relay) :
    IO UInt32 := do
  let (session, relay, _) := session.run random relay
  output.write ⟨session.endpoint.outbound⟩
  output.flush
  match session.role with
  | .finished (.ok ()) => return 0
  | .finished (.error error) =>
    IO.eprintln error.message
    return 1
  | _ =>
    let piece ← input.read pieceSize
    let endpoint := { session.endpoint with outbound := #[], events := #[] }
    let endpoint := if piece.isEmpty then endpoint.close else endpoint.feed piece.toList
    serve input output random { session with endpoint } relay

end RtmpRelay.Main

open RtmpRelay in
def main (arguments : List String) : IO UInt32 := do
  match CommandLine.parse arguments with
  | .ok settings =>
    let random ← IO.getRandomBytes (USize.ofNat Handshake.randomSize)
    Main.serve (← IO.getStdin) (← IO.getStdout) random.toList (.new settings.connection) (.new settings.sinkBuffer)
  | .error fault =>
    match fault with
    | .helpRequested | .versionRequested =>
      IO.println (Main.faultText fault)
      return 0
    | _ =>
      IO.eprintln (Main.faultText fault)
      return 2
