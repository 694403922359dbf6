import RtmpRelay.Amf.Size
import RtmpRelay.Proofs.Writing

/-! Which values can be written at all. Lengths and counts have to fit their fields, on the value itself and on
everything inside it, and nothing else matters: what fits has a form, and what has none is refused for something that
is too long. -/

namespace RtmpRelay.Amf

namespace Value
variable {holds : Value → Prop}

theorem members_induction {motive : Value → Prop}
    (step : ∀ value, (∀ member ∈ value.members, motive member) → motive value) (value : Value) : motive value :=
  step value fun member inside =>
    have fewer : member.nodes < value.nodes := by
      have counted := List.single_le_sum (fun _ _ => Nat.zero_le _) _ (List.mem_map_of_mem (f := nodes) inside)
      rw [nodes_eq value]
      exact Nat.lt_succ_of_le counted
    members_induction step member
termination_by value.nodes

/-- Whether something holds of a value and of everything inside it. -/
def Throughout (holds : Value → Prop) (value : Value) : Prop :=
  ∀ part ∈ value.parts, holds part

theorem throughout_iff {value : Value} :
    Throughout holds value ↔ holds value ∧ ∀ member ∈ value.members, Throughout holds member := by
  simp only [Throughout, parts_eq value, List.forall_mem_cons, List.mem_flatMap]
  exact and_congr_right fun _ =>
    ⟨fun all member inside part found => all part ⟨member, inside, found⟩,
      fun each part ⟨member, inside, found⟩ => each member inside part found⟩

theorem Throughout.imp {other : Value → Prop} {value : Value} (throughout : Throughout holds value)
    (implies : ∀ part, holds part → other part) : Throughout other value :=
  fun part found => implies part (throughout part found)

theorem Throughout.of_member {value member : Value} (throughout : Throughout holds value)
    (inside : member ∈ value.members) : Throughout holds member :=
  (throughout_iff.mp throughout).2 member inside

end Value

namespace Amf0

/-- The lengths and counts of a value fit their fields, whatever is inside it. -/
def FitsFields : Value → Prop
  | .string text => (Text.Utf8.encode text).length < UInt32.size
  | .object properties => ∀ property ∈ properties, IsShort property.1
  | .ecmaArray properties => properties.length < UInt32.size ∧ ∀ property ∈ properties, IsShort property.1
  | .strictArray items => items.length < UInt32.size
  | .typedObject className properties => IsShort className ∧ ∀ property ∈ properties, IsShort property.1
  | .number _ | .boolean _ | .null | .undefined | .date _ => True

open Value (Throughout throughout_iff)

theorem itemsForm_of_forms {items : List Value} (forms : ∀ item ∈ items, ∃ form, Form item form) :
    ∃ body, ItemsForm items body := by
  induction items with
  | nil => exact ⟨[], .nil⟩
  | cons item items ih =>
    obtain ⟨⟨front, first⟩, others⟩ := List.forall_mem_cons.mp forms
    obtain ⟨behind, rest⟩ := ih others
    exact ⟨_, .cons first rest⟩

theorem propertiesForm_of_forms {properties : List (String × Value)}
    (short : ∀ property ∈ properties, IsShort property.1)
    (forms : ∀ value ∈ properties.map Prod.snd, ∃ form, Form value form) : ∃ body, PropertiesForm properties body := by
  induction properties with
  | nil => exact ⟨_, .nil⟩
  | cons property properties ih =>
    obtain ⟨one, others⟩ := List.forall_mem_cons.mp short
    obtain ⟨⟨front, first⟩, further⟩ := List.forall_mem_cons.mp forms
    obtain ⟨behind, rest⟩ := ih others further
    exact ⟨_, .cons one first rest⟩

theorem form_of_members {value : Value} (fits : FitsFields value)
    (forms : ∀ member ∈ value.members, ∃ form, Form member form) : ∃ form, Form value form := by
  cases value with
  | number value => exact ⟨_, .number value⟩
  | boolean value => exact ⟨_, .boolean value⟩
  | string text =>
    by_cases short : IsShort text
    · exact ⟨_, .shortText short⟩
    · exact ⟨_, .longText short fits⟩
  | object properties =>
    obtain ⟨body, listed⟩ := propertiesForm_of_forms fits forms
    exact ⟨_, .object listed⟩
  | null => exact ⟨_, .null⟩
  | undefined => exact ⟨_, .undefined⟩
  | ecmaArray properties =>
    obtain ⟨body, listed⟩ := propertiesForm_of_forms fits.2 forms
    exact ⟨_, .ecmaArray fits.1 listed⟩
  | strictArray items =>
    obtain ⟨body, listed⟩ := itemsForm_of_forms forms
    exact ⟨_, .strictArray fits listed⟩
  | date milliseconds => exact ⟨_, .date milliseconds⟩
  | typedObject className properties =>
    obtain ⟨body, listed⟩ := propertiesForm_of_forms fits.2 forms
    exact ⟨_, .typedObject fits.1 listed⟩

theorem form_of_fits (value : Value) : Throughout FitsFields value → ∃ form, Form value form := by
  induction value using Value.members_induction with
  | step value ih =>
    intro fits
    exact form_of_members (throughout_iff.mp fits).1 fun member inside => ih member inside (fits.of_member inside)

theorem forms_of_items {items : List Value} {body : Bytes} (listed : ItemsForm items body) :
    ∀ item ∈ items, ∃ form, Form item form := by
  induction items generalizing body with
  | nil => exact fun _ member => (nomatch member)
  | cons item items ih =>
    cases listed with
    | cons first rest => exact List.forall_mem_cons.mpr ⟨⟨_, first⟩, ih rest⟩

theorem forms_of_properties {properties : List (String × Value)} {body : Bytes}
    (listed : PropertiesForm properties body) :
    (∀ property ∈ properties, IsShort property.1) ∧ ∀ value ∈ properties.map Prod.snd, ∃ form, Form value form := by
  induction properties generalizing body with
  | nil => exact ⟨fun _ member => (nomatch member), fun _ member => (nomatch member)⟩
  | cons property properties ih =>
    cases listed with
    | cons short first rest =>
      obtain ⟨others, further⟩ := ih rest
      exact ⟨List.forall_mem_cons.mpr ⟨short, others⟩, List.forall_mem_cons.mpr ⟨⟨_, first⟩, further⟩⟩

theorem members_of_form {value : Value} {form : Bytes} (written : Form value form) :
    FitsFields value ∧ ∀ member ∈ value.members, ∃ form, Form member form := by
  cases written with
  | number | boolean | null | undefined | date => exact ⟨trivial, fun _ member => (nomatch member)⟩
  | shortText short => exact ⟨Nat.lt_of_le_of_lt short (by decide), fun _ member => (nomatch member)⟩
  | longText long fits => exact ⟨fits, fun _ member => (nomatch member)⟩
  | object listed => exact forms_of_properties listed
  | ecmaArray fits listed => exact ⟨⟨fits, (forms_of_properties listed).1⟩, (forms_of_properties listed).2⟩
  | strictArray fits listed => exact ⟨fits, forms_of_items listed⟩
  | typedObject short listed => exact ⟨⟨short, (forms_of_properties listed).1⟩, (forms_of_properties listed).2⟩

theorem fits_of_form (value : Value) : (∃ form, Form value form) → Throughout FitsFields value := by
  induction value using Value.members_induction with
  | step value ih =>
    rintro ⟨form, written⟩
    obtain ⟨fits, forms⟩ := members_of_form written
    exact throughout_iff.mpr ⟨fits, fun member inside => ih member inside (forms member inside)⟩

/-- A value is written exactly if everything in it fits its field, whatever stands in front of it. -/
theorem encode_ok_iff (value : Value) (out : Array UInt8) :
    (∃ size after, encode value out = .ok size after) ↔ Throughout FitsFields value := by
  constructor
  · rintro ⟨size, after, written⟩
    obtain ⟨form, derived, _⟩ := encode_appended out value size after written
    exact fits_of_form value ⟨form, derived⟩
  · intro fits
    obtain ⟨form, derived⟩ := form_of_fits value fits
    exact ⟨_, _, encode_writes value derived out⟩

end Amf0
end RtmpRelay.Amf
