import RtmpRelay.Settings

/-!
Reading the command line. Two arguments have a place, the interface and the port; the others are options
with a name. A value that stands on its own is looked at only when the next argument that is understood, or
the end, shows that it is complete. So an argument that is not understood is reported before a bad value in
front of it.
-/

namespace RtmpRelay.CommandLine

inductive Fault where
  | missingArgument
  | invalidValue
  | missingValue
  | unknownArgument
  | repeatedOption
  | needlessValue
  | helpRequested
  | versionRequested
deriving DecidableEq

/-- Something that takes a value. -/
inductive Slot where
  | interface
  | port
  | chunkSize
  | windowAckSize
  | sinkBuffer
  | logLevel
deriving DecidableEq

namespace Slot

def ofOption? : String → Option Slot
  | "chunk-size" => some .chunkSize
  | "window-ack-size" => some .windowAckSize
  | "sink-buffer" => some .sinkBuffer
  | "log-level" => some .logLevel
  | _ => none

end Slot

def digits? (text : List Char) : Option Nat :=
  if text.isEmpty then none
  else text.foldl (fun value char =>
    if char.isDigit then value.map (· * 10 + (char.toNat - '0'.toNat)) else none) (some 0)

/-- A decimal number, with or without a sign. -/
def signed? (text : String) : Option Int :=
  match text.toList with
  | '-' :: rest => (digits? rest).map fun value => -(value : Int)
  | '+' :: rest => (digits? rest).map Int.ofNat
  | rest => (digits? rest).map Int.ofNat

/-- A decimal number that may have a plus sign but no other. -/
def unsigned? (text : String) : Option Nat :=
  match text.toList with
  | '+' :: rest => digits? rest
  | rest => digits? rest

def inRange? (low high : Nat) (text : String) : Option Nat := do
  let value ← signed? text
  if (low : Int) ≤ value ∧ value ≤ high then return value.toNat else none

structure Given where
  interface : Option String
  port : Option UInt16
  chunkSize : Option UInt32
  windowAckSize : Option UInt32
  sinkBuffer : Option Nat
  logLevel : Option String

namespace Given

def has (given : Given) : Slot → Bool
  | .interface => given.interface.isSome
  | .port => given.port.isSome
  | .chunkSize => given.chunkSize.isSome
  | .windowAckSize => given.windowAckSize.isSome
  | .sinkBuffer => given.sinkBuffer.isSome
  | .logLevel => given.logLevel.isSome

/-- Puts a value into its slot, if it is one that the slot takes. -/
def set? (given : Given) (slot : Slot) (text : String) : Option Given :=
  match slot with
  | .interface => some { given with interface := text }
  | .port => (inRange? 0 0xffff text).map fun value => { given with port := UInt16.ofNat value }
  | .chunkSize =>
    (inRange? minChunkSize.toNat maxChunkSize.toNat text).map fun value =>
      { given with chunkSize := UInt32.ofNat value }
  | .windowAckSize =>
    (inRange? 0 0xffffffff text).map fun value => { given with windowAckSize := UInt32.ofNat value }
  | .sinkBuffer =>
    ((unsigned? text).filter (· < UInt64.size)).map fun value => { given with sinkBuffer := value }
  | .logLevel => some { given with logLevel := text }

/-- Takes a value over. That an option was given before counts more than what the value is. -/
def take (given : Given) (slot : Slot) (text : String) : Except Fault Given :=
  if given.has slot then throw .repeatedOption
  else
    match given.set? slot text with
    | some after => return after
    | none => throw .invalidValue

end Given

/-- The forms an argument can have. Of several short flags in one argument only the first matters. -/
inductive Form where
  | endOfOptions
  | long (name : String) (value : Option String)
  | short (flag : Char)
  | plain

def splitValue (text : List Char) : String × Option String :=
  match text.dropWhile (· ≠ '=') with
  | [] => (String.ofList text, none)
  | _ :: value => (String.ofList (text.takeWhile (· ≠ '=')), some (String.ofList value))

def form (argument : String) : Form :=
  match argument.toList with
  | ['-', '-'] => .endOfOptions
  | '-' :: '-' :: rest =>
    let (name, value) := splitValue rest
    .long name value
  | '-' :: flag :: _ => .short flag
  | _ => .plain

/-- A value that is not yet known to be complete, or an option that still waits for its value. -/
structure Pending where
  slot : Slot
  text : Option String

/-- How far the arguments have been read. After the end of options every argument has a place. -/
structure Reading where
  given : Given
  pending : Option Pending
  placed : Nat
  optionsEnded : Bool

namespace Reading

def start : Reading :=
  ⟨⟨none, none, none, none, none, none⟩, none, 0, false⟩

def settle (reading : Reading) : Except Fault Reading :=
  match reading.pending with
  | none => return reading
  | some ⟨_, none⟩ => throw .missingValue
  | some ⟨slot, some text⟩ => return { reading with given := ← reading.given.take slot text, pending := none }

/-- Takes an argument that has no name, for the option that waits for it or for the next place. -/
def plain (reading : Reading) (argument : String) : Except Fault Reading :=
  match reading.pending, reading.optionsEnded with
  | some ⟨slot, none⟩, false => return { reading with pending := some ⟨slot, some argument⟩ }
  | _, _ =>
    let place (slot : Slot) : Except Fault Reading :=
      return { ← reading.settle with pending := some ⟨slot, some argument⟩, placed := reading.placed + 1 }
    match reading.placed with
    | 0 => place .interface
    | 1 => place .port
    | _ => throw .unknownArgument

def request (reading : Reading) (fault : Fault) : Except Fault Reading := do
  let _ ← reading.settle
  throw fault

def long (reading : Reading) (name : String) (value : Option String) : Except Fault Reading :=
  match Slot.ofOption? name, value with
  | some slot, none => return { ← reading.settle with pending := some ⟨slot, none⟩ }
  | some slot, some text => do
    let settled ← reading.settle
    return { settled with given := ← settled.given.take slot text }
  | none, none =>
    if name = "help" then reading.request .helpRequested
    else if name = "version" then reading.request .versionRequested
    else throw .unknownArgument
  | none, some _ => throw (if name = "help" ∨ name = "version" then .needlessValue else .unknownArgument)

def short (reading : Reading) (flag : Char) : Except Fault Reading :=
  if flag = 'h' then reading.request .helpRequested
  else if flag = 'V' then reading.request .versionRequested
  else throw .unknownArgument

def argument (reading : Reading) (text : String) : Except Fault Reading :=
  if reading.optionsEnded then reading.plain text
  else
    match form text with
    | .endOfOptions => return { reading with optionsEnded := true }
    | .long name value => reading.long name value
    | .short flag => reading.short flag
    | .plain => reading.plain text

def finish (reading : Reading) : Except Fault Settings := do
  let given := (← reading.settle).given
  match given.interface, given.port with
  | some interface, some port =>
    let standard := ConnectionSettings.standard
    return {
      interface, port
      connection := ⟨given.chunkSize.getD standard.chunkSize, given.windowAckSize.getD standard.windowAckSize⟩
      sinkBuffer := given.sinkBuffer.getD Settings.standardSinkBuffer
      logLevel := given.logLevel.getD Settings.standardLogLevel }
  | _, _ => throw .missingArgument

end Reading

/-- The settings that the arguments ask for; the name of the program is not among them. -/
def parse (arguments : List String) : Except Fault Settings := do
  (← arguments.foldlM Reading.argument .start).finish

end RtmpRelay.CommandLine
