import RtmpRelay.Assoc
import RtmpRelay.Double.Basic

/-!
The values that clients and the server exchange in commands and metadata. Both encodings on the wire are
read into this one type.
-/

namespace RtmpRelay.Amf

/-- Properties are kept in ascending order of their names, each name once. A date counts milliseconds since
1970; it has no time zone. -/
inductive Value where
  | number (value : Double)
  | boolean (value : Bool)
  | string (text : String)
  | object (properties : List (String × Value))
  | null
  | undefined
  | ecmaArray (properties : List (String × Value))
  | strictArray (items : List Value)
  | date (milliseconds : Double)
  | typedObject (className : String) (properties : List (String × Value))
deriving Inhabited

abbrev Properties := Assoc String Value

namespace Value

def string? : Value → Option String
  | .string text => some text
  | _ => none

def number? : Value → Option Double
  | .number value => some value
  | _ => none

def boolean? : Value → Option Bool
  | .boolean value => some value
  | _ => none

/-- The properties of any value that has named ones. -/
def properties? : Value → Option Properties
  | .object properties | .ecmaArray properties | .typedObject _ properties => some properties
  | _ => none

def property? (value : Value) (name : String) : Option Value :=
  value.properties?.bind (Assoc.find? name)

/-- Null and undefined both stand for no value. -/
def isAbsent : Value → Bool
  | .null | .undefined => true
  | _ => false

def ofInt (number : Int) : Value :=
  .number (Double.ofInt number)

def ofNat (number : Nat) : Value :=
  .number (Double.ofNat number)

def ofOption (value : Option Value) : Value :=
  value.getD .null

/-- An anonymous object; of two entries with one name the later one stays. -/
def ofEntries (entries : List (String × Value)) : Value :=
  .object (Assoc.ofEntries entries)

mutual
/-- Equality of content. Numbers are compared by value, so that not-a-number differs from itself. -/
def same : Value → Value → Bool
  | .number first, .number second => first.sameNumber second
  | .boolean first, .boolean second => first == second
  | .string first, .string second => first == second
  | .object first, .object second => sameProperties first second
  | .null, .null => true
  | .undefined, .undefined => true
  | .ecmaArray first, .ecmaArray second => sameProperties first second
  | .strictArray first, .strictArray second => sameItems first second
  | .date first, .date second => first.sameNumber second
  | .typedObject firstName first, .typedObject secondName second =>
    firstName == secondName && sameProperties first second
  | _, _ => false

def sameItems : List Value → List Value → Bool
  | [], [] => true
  | first :: firsts, second :: seconds => same first second && sameItems firsts seconds
  | _, _ => false

def sameProperties : List (String × Value) → List (String × Value) → Bool
  | [], [] => true
  | (firstName, first) :: firsts, (secondName, second) :: seconds =>
    firstName == secondName && same first second && sameProperties firsts seconds
  | _, _ => false
end

end Value
end RtmpRelay.Amf
