import RtmpRelay.Amf.Depth
import RtmpRelay.Proofs.Sharing

/-! How deep the values are that come out of the readers. A reader counts how deep it is in the input, which bounds the
values as long as each of them is written out where it stands. The newer encoding can refer back to an object that was
read before, and that one is put in whole, however deep the reference itself stands. What bounds values in any case is
the input: each level of a value was paid for with a byte, and so were the levels of the objects that can be
referred to. -/

namespace RtmpRelay.Amf

namespace Value

theorem depth_le_iff {value : Value} {bound : Nat} :
    value.depth ≤ bound + 1 ↔ ∀ member ∈ value.members, member.depth ≤ bound := by
  cases value with
  | object properties | ecmaArray properties | typedObject className properties =>
    exact Nat.add_le_add_iff_right.trans propertiesDepth_le_iff
  | strictArray items => exact Nat.add_le_add_iff_right.trans itemsDepth_le_iff
  | number | boolean | string | null | undefined | date => simp [depth, members]

end Value

namespace Yields
variable {shared : Prop} {room : Nat} {start rest : Stock} {values : List Value}

/-- Every level of what is read has been paid for, if that is so of the objects that are held. -/
theorem depth_paid (yields : Yields shared room start values rest) {total : Nat} (fits : start.left ≤ total)
    (held : ∀ object ∈ start.held, object.depth + start.left ≤ total) :
    (∀ value ∈ values, value.depth + rest.left ≤ total) ∧ ∀ object ∈ rest.held, object.depth + rest.left ≤ total := by
  induction yields generalizing total with
  | spent less fewer =>
    refine ⟨nofun, fun object member => ?_⟩
    have cost := held object (fewer member)
    omega
  | append first second one other =>
    obtain ⟨paid, among⟩ := one fits held
    obtain ⟨also, kept⟩ := other (Nat.le_trans first.less fits) among
    refine ⟨fun value member => ?_, kept⟩
    rcases List.mem_append.mp member with before | after
    · have cost := paid value before
      have shorter := second.less
      omega
    · exact also value after
  | @reserved room start left paid =>
    refine ⟨nofun, List.forall_mem_cons.mpr ⟨?_, fun object member => ?_⟩⟩
    · change 1 + left ≤ total
      omega
    · have cost := held object member
      dsimp only
      omega
  | @referred room start left value allowed known paid =>
    have later : ∀ object ∈ start.held, object.depth + left ≤ total := by
      intro object member
      have cost := held object member
      omega
    exact ⟨List.forall_mem_singleton.mpr (later value known), later⟩
  | @contained room start rest left values value paid yields inside ih =>
    obtain ⟨total, rfl⟩ : ∃ less, total = less + 1 := Nat.exists_eq_add_one.mpr (by omega)
    have before : ∀ object ∈ start.held, object.depth + left ≤ total := by
      intro object member
      have cost := held object member
      omega
    have fewer : left ≤ total := by omega
    obtain ⟨within, kept⟩ := ih fewer before
    have spent := yields.less
    dsimp only at spent
    have deep : value.depth ≤ total - rest.left + 1 := by
      refine Value.depth_le_iff.mpr fun member part => ?_
      have cost := within member (inside.subset part)
      omega
    refine ⟨List.forall_mem_singleton.mpr (by omega), fun object member => ?_⟩
    have cost := kept object member
    omega
  | remembered yields found ih =>
    obtain ⟨paid, kept⟩ := ih fits held
    exact ⟨paid, List.forall_mem_cons.mpr ⟨paid _ found, kept⟩⟩

theorem depth_le_room (yields : Yields False room start values rest) : ∀ value ∈ values, value.depth ≤ room := by
  induction yields with
  | spent | reserved => exact nofun
  | append first second one other =>
    intro value member
    exact (List.mem_append.mp member).elim (one value) (other value)
  | referred allowed => exact allowed.elim
  | contained paid yields inside ih =>
    exact List.forall_mem_singleton.mpr (Value.depth_le_iff.mpr fun member part => ih member (inside.subset part))
  | remembered yields found ih => exact ih

end Yields

namespace Amf0

theorem valuesVia_yields {refer : (index : Nat) → Amf3.Reader Value} {shared : Prop} (looks : Amf3.Looks refer shared)
    (bytes : Bytes) : Ensures (valuesVia (escapedVia refer)) bytes fun values rest =>
      Yields shared maxDepth (stock bytes) values (stock rest) := by
  have each : ∀ (rounds : Bytes) (values : Array Value) (unread : Bytes),
      Yields shared maxDepth (stock bytes) values.toList (stock unread) →
      Ensures (valuesFrom (nextVia (escapedVia refer)) rounds values) unread fun values rest =>
        Yields shared maxDepth (stock bytes) values (stock rest) := by
    intro rounds
    induction rounds with
    | nil => exact fun values unread yields => .pure yields
    | cons round rounds ih =>
      intro values unread yields
      refine .bind (.get ?_)
      split
      · exact .pure yields
      · refine .bind ((valueVia_yields looks maxDepth unread).imp fun next rest further => ?_)
        refine ih (values.push next) rest ?_
        rw [Array.toList_push]
        exact yields.append further
  exact .bind (.get (each bytes #[] bytes (.nothing _)))

section Bounds
variable {bytes : Bytes}

theorem next_paid {value : Value} {rest : Bytes} (read : next bytes = .ok value rest) :
    value.depth + rest.length ≤ bytes.length := by
  have yields := valueVia_yields Amf3.entry_looks maxDepth bytes value rest read
  exact (yields.depth_paid (Nat.le_refl _) nofun).1 value (List.mem_singleton_self value)

/-- A reading that needs no object reference goes no deeper than the limit. -/
theorem next_shallow {value : Value} {rest : Bytes}
    (read : nextVia (escapedVia fun _ => throw .nestingTooDeep) bytes = .ok value rest) : value.depth ≤ maxDepth := by
  have yields := valueVia_yields (Amf3.throw_looks .nestingTooDeep) maxDepth bytes value rest read
  exact yields.depth_le_room value (List.mem_singleton_self value)

theorem decodeBatchVia_yields {refer : (index : Nat) → Amf3.Reader Value} {shared : Prop}
    (looks : Amf3.Looks refer shared) {values : List Value}
    (read : decodeBatchVia (escapedVia refer) bytes = .ok values) :
    ∃ rest, Yields shared maxDepth (stock bytes) values (stock rest) := by
  rw [decodeBatchVia] at read
  split at read
  next found rest there =>
    cases read
    exact ⟨rest, valuesVia_yields looks bytes _ rest there⟩
  next => cases read

end Bounds

/-- Whatever the input, a value is no deeper than the number of bytes it was read from. If no object is referred to, it is
no deeper than the limit either, whether one value is asked for, one after another or all at once. -/
theorem depth_is_paid_for (bytes : Bytes) :
    (∀ value rest, next bytes = .ok value rest → value.depth + rest.length ≤ bytes.length ∧
      ((∀ refer, nextVia (escapedVia refer) bytes = next bytes) → value.depth ≤ maxDepth)) ∧
    (∀ value size, decode bytes = .ok (value, size) → value.depth ≤ size ∧
      ((∀ refer, decodeVia (escapedVia refer) bytes = decode bytes) → value.depth ≤ maxDepth)) ∧
    (∀ values, decodeBatch bytes = .ok values → ∀ value ∈ values, value.depth ≤ bytes.length ∧
      ((∀ refer, decodeBatchVia (escapedVia refer) bytes = decodeBatch bytes) → value.depth ≤ maxDepth)) := by
  refine ⟨fun value rest read => ⟨next_paid read, fun unshared => next_shallow ((unshared _).trans read)⟩, ?_, ?_⟩
  · intro value size read
    refine ⟨?_, fun unshared => ?_⟩
    · obtain ⟨rest, there, rfl⟩ := decodeVia_next read
      have paid := next_paid there
      omega
    · obtain ⟨rest, there, -⟩ := decodeVia_next ((unshared _).trans read)
      exact next_shallow there
  · intro values read value member
    refine ⟨?_, fun unshared => ?_⟩
    · obtain ⟨rest, yields⟩ := decodeBatchVia_yields Amf3.entry_looks read
      have paid := (yields.depth_paid (Nat.le_refl _) nofun).1 value member
      exact Nat.le_trans (Nat.le_add_right _ _) paid
    · have closed := (unshared fun _ => throw .nestingTooDeep).trans read
      obtain ⟨rest, yields⟩ := decodeBatchVia_yields (Amf3.throw_looks _) closed
      exact yields.depth_le_room value member

/-- Arrays of one item around null, as many as the limit allows. -/
def deepest : Bytes :=
  (List.replicate 63 [0x0a, 0, 0, 0, 1]).flatten ++ [0x05]

set_option maxRecDepth 20000 in
theorem deepest_reaches_limit : (∀ refer, decodeVia (escapedVia refer) deepest = decode deepest) ∧
    ∃ value, decode deepest = .ok (value, 316) ∧ value.depth = maxDepth := by
  have unshared : ∀ refer, decodeVia (escapedVia refer) deepest = decode deepest := fun _ => rfl
  obtain ⟨value, read, depth⟩ : ∃ value, decode deepest = .ok (value, 316) ∧ value.depth = 64 :=
    decoded_of (by decide +kernel)
  have limited := ((depth_is_paid_for deepest).2.1 value 316 read).2 unshared
  exact ⟨unshared, value, read, Nat.le_antisymm limited (Nat.le_of_eq depth.symm)⟩

/-- Two items in an array: the first is nested as deep as half of the limit, and the second goes as deep again and then
refers to the first. -/
def spliced : Bytes :=
  [0x11, 0x09, 0x05, 0x01] ++ (List.replicate 31 [0x09, 0x03, 0x01]).flatten ++ [0x09, 0x01, 0x01] ++
    (List.replicate 32 [0x09, 0x03, 0x01]).flatten ++ [0x09, 0x02]

theorem spliced_exceeds_limit : ∃ value, decode spliced = .ok (value, 198) ∧ maxDepth < value.depth := by
  obtain ⟨value, read, depth⟩ : ∃ value, decode spliced = .ok (value, 198) ∧ value.depth = 65 :=
    decoded_of (by decide +kernel)
  exact ⟨value, read, Nat.lt_of_lt_of_eq (Nat.lt_succ_self maxDepth) depth.symm⟩

end Amf0
end RtmpRelay.Amf
