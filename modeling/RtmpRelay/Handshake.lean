import RtmpRelay.Error

/-!
The handshake of the server. Either side sends a version byte, a hello of a fixed size and an echo of the
other's hello. The bytes of a hello after the first eight are random; the client has to echo the server's.
-/

namespace RtmpRelay.Handshake

def helloSize : Nat := 1536

def randomSize : Nat := helloSize - 8

/-- The version and the hello, with time zero. It does not depend on what the client sends. -/
def opening (random : Bytes) : Bytes :=
  protocolVersion :: List.replicate 8 0 ++ random

/-- The client's hello, with its second word set to zero. -/
def echo (hello : Bytes) : Bytes :=
  hello.take 4 ++ List.replicate 4 0 ++ hello.drop 8

/-- What the server is waiting for. -/
inductive Stage where
  | version
  | hello
  | echo
deriving DecidableEq

def Stage.awaited : Stage → Nat
  | .version => 1
  | .hello | .echo => helloSize

/-- What is sent in answer to the awaited bytes, and the stage after it, if there is one. -/
def answer (random : Bytes) (stage : Stage) (received : Bytes) : Except Error (Bytes × Option Stage) :=
  match stage with
  | .version =>
    let version := received.headD 0
    if version = protocolVersion then return (opening random, some .hello)
    else throw (.handshake (.version version))
  | .hello => return (echo received, some .echo)
  | .echo => if received.drop 8 = random then return ([], none) else throw (.handshake .echo)

end RtmpRelay.Handshake
