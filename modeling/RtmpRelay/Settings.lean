import RtmpRelay.Connection.Basic

/-! What the operator decides when the server is started. -/

namespace RtmpRelay

structure Settings where
  interface : String
  port : UInt16
  connection : ConnectionSettings
  sinkBuffer : Nat
  logLevel : String
deriving DecidableEq

namespace Settings

/-- Queues that nobody asked to be longer or shorter have room for this many packets. -/
def standardSinkBuffer : Nat := 1000

def standardLogLevel : String := "info"

def bindAddress (settings : Settings) : String :=
  settings.interface ++ ":" ++ toString settings.port

end Settings
end RtmpRelay
