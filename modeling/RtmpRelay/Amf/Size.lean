import Mathlib.Algebra.Order.BigOperators.Group.List
import Mathlib.Algebra.Order.Ring.Nat
import RtmpRelay.Amf.Value

/-! How large a value is, written out in full: what occurs in it twice counts twice. -/

namespace RtmpRelay.Amf.Value

/-- What is right inside a value. -/
def members : Value → List Value
  | .object properties | .ecmaArray properties | .typedObject _ properties => properties.map Prod.snd
  | .strictArray items => items
  | .number _ | .boolean _ | .string _ | .null | .undefined | .date _ => []

mutual
/-- One for the value and as many as its members have. -/
def nodes : Value → Nat
  | .object properties | .ecmaArray properties | .typedObject _ properties => propertiesNodes properties + 1
  | .strictArray items => itemsNodes items + 1
  | .number _ | .boolean _ | .string _ | .null | .undefined | .date _ => 1

def itemsNodes : List Value → Nat
  | [] => 0
  | item :: items => nodes item + itemsNodes items

def propertiesNodes : List (String × Value) → Nat
  | [] => 0
  | (_, value) :: properties => nodes value + propertiesNodes properties
end

mutual
/-- The value and everything inside it, at any level. -/
def parts : Value → List Value
  | .object properties => .object properties :: propertiesParts properties
  | .ecmaArray properties => .ecmaArray properties :: propertiesParts properties
  | .typedObject className properties => .typedObject className properties :: propertiesParts properties
  | .strictArray items => .strictArray items :: itemsParts items
  | .number value => [.number value]
  | .boolean value => [.boolean value]
  | .string text => [.string text]
  | .null => [.null]
  | .undefined => [.undefined]
  | .date milliseconds => [.date milliseconds]

def itemsParts : List Value → List Value
  | [] => []
  | item :: items => parts item ++ itemsParts items

def propertiesParts : List (String × Value) → List Value
  | [] => []
  | (_, value) :: properties => parts value ++ propertiesParts properties
end

theorem itemsNodes_eq (items : List Value) : itemsNodes items = (items.map nodes).sum := by
  induction items with
  | nil => rfl
  | cons item items ih => rw [itemsNodes, ih, List.map_cons, List.sum_cons]

theorem propertiesNodes_eq (properties : List (String × Value)) :
    propertiesNodes properties = ((properties.map Prod.snd).map nodes).sum := by
  induction properties with
  | nil => rfl
  | cons property properties ih => rw [propertiesNodes, ih, List.map_cons, List.map_cons, List.sum_cons]

theorem itemsParts_eq (items : List Value) : itemsParts items = items.flatMap parts := by
  induction items with
  | nil => rfl
  | cons item items ih => rw [itemsParts, ih, List.flatMap_cons]

theorem propertiesParts_eq (properties : List (String × Value)) :
    propertiesParts properties = (properties.map Prod.snd).flatMap parts := by
  induction properties with
  | nil => rfl
  | cons property properties ih => rw [propertiesParts, ih, List.map_cons, List.flatMap_cons]

theorem nodes_eq (value : Value) : value.nodes = (value.members.map nodes).sum + 1 := by
  cases value <;> simp [nodes, members, itemsNodes_eq, propertiesNodes_eq]

theorem parts_eq (value : Value) : value.parts = value :: value.members.flatMap parts := by
  cases value <;> simp [parts, members, itemsParts_eq, propertiesParts_eq]

end RtmpRelay.Amf.Value
