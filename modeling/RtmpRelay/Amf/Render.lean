import RtmpRelay.Amf.Value
import RtmpRelay.Double.Layout
import RtmpRelay.Text.Quoted

/-! Two readable forms of a value: a plain one for logs and a precise one that names each kind. -/

namespace RtmpRelay.Amf.Value

/-- Numbers in plain form are never written with an exponent. -/
def plainNumber : Double.Layout where
  positional _ := true
  wholePoint := false

/-- Numbers in precise form are positional from 0.0001 up to below ten to the 16. -/
def preciseNumber : Double.Layout where
  positional power := -4 ≤ power && power < 16
  wholePoint := true

def listed (opening : String) (parts : List String) (closing : String) : String :=
  opening ++ ", ".intercalate parts ++ closing

def braced (parts : List String) : String :=
  listed "\x7b" parts "\x7d"

mutual
/-- The plain form. Text stands between quotes as it is. -/
def plain : Value → String
  | .number value => value.text plainNumber
  | .boolean value => if value then "true" else "false"
  | .string text => "\"" ++ text ++ "\""
  | .object properties | .ecmaArray properties => braced (plainProperties properties)
  | .typedObject className properties => className ++ " " ++ braced (plainProperties properties)
  | .null => "null"
  | .undefined => "undefined"
  | .date milliseconds => "Date(" ++ milliseconds.text plainNumber ++ ")"
  | .strictArray items => listed "[" (plainItems items) "]"

def plainItems : List Value → List String
  | [] => []
  | item :: rest => plain item :: plainItems rest

def plainProperties : List (String × Value) → List String
  | [] => []
  | (name, value) :: rest => (name ++ ": " ++ plain value) :: plainProperties rest
end

mutual
/-- The precise form. Text is quoted with escapes. -/
def precise : Value → String
  | .number value => "Number(" ++ value.text preciseNumber ++ ")"
  | .boolean value => if value then "Boolean(true)" else "Boolean(false)"
  | .string text => "String(" ++ Text.Quoted.encode text ++ ")"
  | .object properties => "Object(" ++ braced (preciseProperties properties) ++ ")"
  | .null => "Null"
  | .undefined => "Undefined"
  | .ecmaArray properties => "EcmaArray(" ++ braced (preciseProperties properties) ++ ")"
  | .strictArray items => "StrictArray(" ++ listed "[" (preciseItems items) "]" ++ ")"
  | .date milliseconds => "Date(" ++ milliseconds.text preciseNumber ++ ")"
  | .typedObject className properties =>
    "TypedObject \x7b class_name: " ++ Text.Quoted.encode className ++ ", object: " ++
      braced (preciseProperties properties) ++ " \x7d"

def preciseItems : List Value → List String
  | [] => []
  | item :: rest => precise item :: preciseItems rest

def preciseProperties : List (String × Value) → List String
  | [] => []
  | (name, value) :: rest => (Text.Quoted.encode name ++ ": " ++ precise value) :: preciseProperties rest
end

/-- The precise form of a value that may be missing. -/
def preciseOption : Option Value → String
  | none => "None"
  | some value => "Some(" ++ precise value ++ ")"

end RtmpRelay.Amf.Value
