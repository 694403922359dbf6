import RtmpRelay.Amf.Value

/-! How deep a value is nested. A scalar and an empty container are one level deep, and every other container is one
level deeper than its deepest member. -/

namespace RtmpRelay.Amf.Value

mutual
def depth : Value → Nat
  | .object properties | .ecmaArray properties | .typedObject _ properties => propertiesDepth properties + 1
  | .strictArray items => itemsDepth items + 1
  | .number _ | .boolean _ | .string _ | .null | .undefined | .date _ => 1

def itemsDepth : List Value → Nat
  | [] => 0
  | item :: items => max (depth item) (itemsDepth items)

def propertiesDepth : List (String × Value) → Nat
  | [] => 0
  | (_, value) :: properties => max (depth value) (propertiesDepth properties)
end

theorem itemsDepth_le_iff {items : List Value} {bound : Nat} :
    itemsDepth items ≤ bound ↔ ∀ item ∈ items, item.depth ≤ bound := by
  induction items with
  | nil => simp [itemsDepth]
  | cons item items ih => rw [itemsDepth, Nat.max_le, ih, List.forall_mem_cons]

theorem propertiesDepth_le_iff {properties : List (String × Value)} {bound : Nat} :
    propertiesDepth properties ≤ bound ↔ ∀ value ∈ properties.map Prod.snd, value.depth ≤ bound := by
  induction properties with
  | nil => simp [propertiesDepth]
  | cons property properties ih =>
    obtain ⟨name, value⟩ := property
    rw [propertiesDepth, Nat.max_le, ih, List.map_cons, List.forall_mem_cons]

end RtmpRelay.Amf.Value
