import RtmpRelay.Bytes
import Std.Data.TreeMap

/-!
Finite maps as lists of entries in ascending order of their keys. The order makes two maps with the same
entries the same list, and it is the order in which a map is written out. Many entries at once go through a
balanced tree, which gives the same map as one insertion after another (`ofEntries_eq_foldl`).
-/

namespace RtmpRelay

abbrev Assoc (κ : Type u) (α : Type v) := List (κ × α)

namespace Assoc
variable {κ : Type u} {α : Type v}

def find? [DecidableEq κ] (key : κ) : Assoc κ α → Option α
  | [] => none
  | (held, value) :: rest => if key = held then some value else find? key rest

/-- Puts a value under a key, in place of the value the key had. -/
def insert [Ord κ] (key : κ) (value : α) : Assoc κ α → Assoc κ α
  | [] => [(key, value)]
  | (held, other) :: rest =>
    match compare key held with
    | .lt => (key, value) :: (held, other) :: rest
    | .eq => (key, value) :: rest
    | .gt => (held, other) :: insert key value rest

def erase [DecidableEq κ] (key : κ) : Assoc κ α → Assoc κ α
  | [] => []
  | (held, value) :: rest => if key = held then rest else (held, value) :: erase key rest

/-- The map with the given entries; of two with one key the later one stays. -/
def ofEntries [Ord κ] (entries : List (κ × α)) : Assoc κ α :=
  (Std.TreeMap.ofList entries compare).toList

section Lookup
variable [DecidableEq κ]

theorem find?_insert_self [Ord κ] [Std.LawfulEqOrd κ] (key : κ) (value : α) (map : Assoc κ α) :
    find? key (insert key value map) = some value := by
  induction map with
  | nil => simp [insert, find?]
  | cons entry rest ih =>
    obtain ⟨held, other⟩ := entry
    cases order : compare key held with
    | lt | eq => simp [insert, find?, order]
    | gt =>
      have distinct : key ≠ held := by
        rintro rfl
        simp at order
      simp [insert, find?, order, distinct, ih]

theorem find?_insert_of_ne [Ord κ] [Std.LawfulEqOrd κ] {key other : κ} (distinct : other ≠ key)
    (value : α) (map : Assoc κ α) : find? other (insert key value map) = find? other map := by
  induction map with
  | nil => simp [insert, find?, distinct]
  | cons entry rest ih =>
    obtain ⟨held, kept⟩ := entry
    cases order : compare key held with
    | lt => simp [insert, find?, order, distinct]
    | eq =>
      obtain rfl := Std.LawfulEqOrd.eq_of_compare order
      simp [insert, find?, distinct]
    | gt => simp [insert, find?, order, ih]

theorem find?_erase_of_ne {key other : κ} (distinct : other ≠ key) (map : Assoc κ α) :
    find? other (erase key map) = find? other map := by
  induction map with
  | nil => rfl
  | cons entry rest ih =>
    obtain ⟨held, kept⟩ := entry
    by_cases same : key = held
    · subst same
      simp [erase, find?, distinct]
    · by_cases hit : other = held <;> simp_all [erase, find?]

theorem erase_sublist (key : κ) (map : Assoc κ α) : (map.erase key).Sublist map := by
  induction map with
  | nil => exact .slnil
  | cons head rest ih =>
    rw [erase]
    split
    · exact List.sublist_cons_self head rest
    · exact ih.cons_cons head

theorem mem_of_find? {key : κ} {value : α} {map : Assoc κ α} (found : map.find? key = some value) :
    (key, value) ∈ map := by
  induction map with
  | nil => cases found
  | cons entry rest ih =>
    obtain ⟨held, other⟩ := entry
    rw [find?] at found
    split at found
    next same => cases found; rw [same]; exact List.mem_cons_self
    next => exact List.mem_cons_of_mem _ (ih found)

end Lookup

section Order
variable [Ord κ]

def Ascending (map : Assoc κ α) : Prop :=
  map.Pairwise fun first second => compare first.1 second.1 = .lt

theorem Ascending.erase [DecidableEq κ] {map : Assoc κ α} (ascending : map.Ascending) (key : κ) :
    (map.erase key).Ascending :=
  List.Pairwise.sublist (erase_sublist key map) ascending

theorem mem_insert {key : κ} {value : α} {map : Assoc κ α} {entry : κ × α}
    (member : entry ∈ insert key value map) : entry = (key, value) ∨ entry ∈ map := by
  induction map with
  | nil => simpa [insert] using member
  | cons head rest ih =>
    obtain ⟨held, other⟩ := head
    cases order : compare key held with
    | lt => simpa [insert, order] using member
    | eq =>
      simp only [insert, order, List.mem_cons] at member
      rcases member with same | inside
      · exact .inl same
      · exact .inr (List.mem_cons_of_mem _ inside)
    | gt =>
      simp only [insert, order, List.mem_cons] at member
      rcases member with same | inside
      · exact .inr (same ▸ List.mem_cons_self)
      · exact (ih inside).imp_right (List.mem_cons_of_mem _)

variable [Std.TransOrd κ]

theorem Ascending.insert {map : Assoc κ α} (ascending : map.Ascending) (key : κ) (value : α) :
    (map.insert key value).Ascending := by
  induction map with
  | nil => simp [Ascending, Assoc.insert]
  | cons head rest ih =>
    obtain ⟨held, other⟩ := head
    obtain ⟨above, further⟩ := List.pairwise_cons.mp ascending
    cases order : compare key held with
    | lt =>
      simp only [Assoc.insert, order]
      refine List.pairwise_cons.mpr ⟨?_, ascending⟩
      intro entry member
      rcases List.mem_cons.mp member with rfl | inside
      · exact order
      · exact Std.TransCmp.lt_trans order (above entry inside)
    | eq =>
      simp only [Assoc.insert, order]
      refine List.pairwise_cons.mpr ⟨?_, further⟩
      intro entry inside
      exact Std.TransCmp.lt_of_eq_of_lt order (above entry inside)
    | gt =>
      simp only [Assoc.insert, order]
      refine List.pairwise_cons.mpr ⟨?_, ih further⟩
      intro entry member
      rcases mem_insert member with rfl | inside
      · exact Std.OrientedCmp.lt_of_gt order
      · exact above entry inside

theorem ascending_ofEntries (entries : List (κ × α)) : (ofEntries entries).Ascending :=
  Std.TreeMap.ordered_keys_toList

end Order

section Extensionality
variable [DecidableEq κ] [Ord κ] [Std.LawfulEqOrd κ]

theorem Ascending.mem_iff_find? {map : Assoc κ α} (ascending : map.Ascending) {key : κ} {value : α} :
    (key, value) ∈ map ↔ map.find? key = some value := by
  induction map with
  | nil => simp [find?]
  | cons head rest ih =>
    obtain ⟨held, other⟩ := head
    obtain ⟨above, further⟩ := List.pairwise_cons.mp ascending
    by_cases same : key = held
    · subst same
      have absent : (key, value) ∉ rest := by
        intro inside
        have order := above _ inside
        simp at order
      simp [find?, absent, eq_comm]
    · simp [find?, same, ih further]

theorem Ascending.find?_erase_self {map : Assoc κ α} (ascending : map.Ascending) (key : κ) :
    (map.erase key).find? key = none := by
  induction map with
  | nil => rfl
  | cons head rest ih =>
    obtain ⟨held, other⟩ := head
    obtain ⟨above, further⟩ := List.pairwise_cons.mp ascending
    rw [Assoc.erase]
    split
    next same =>
      rw [Option.eq_none_iff_forall_ne_some]
      intro value found
      have order := above _ (mem_of_find? found)
      simp [same] at order
    next different => rw [find?, if_neg different, ih further]

variable [Std.TransOrd κ]

/-- A map is determined by what is found in it. -/
theorem Ascending.ext {first second : Assoc κ α} (firstAscending : first.Ascending)
    (secondAscending : second.Ascending) (same : ∀ key, first.find? key = second.find? key) : first = second := by
  have distinct : ∀ {map : Assoc κ α}, map.Ascending → map.Nodup := by
    intro map ascending
    refine ascending.imp ?_
    intro one other order equal
    simp [equal] at order
  have members : first.Perm second := by
    rw [List.perm_ext_iff_of_nodup (distinct firstAscending) (distinct secondAscending)]
    intro entry
    rw [firstAscending.mem_iff_find?, secondAscending.mem_iff_find?, same]
  refine members.eq_of_pairwise ?_ firstAscending secondAscending
  intro one other _ _ before after
  exact absurd (Std.TransCmp.lt_trans before after) (by simp)

/-- Putting back what is there changes nothing. -/
theorem Ascending.insert_of_find? {map : Assoc κ α} (ascending : map.Ascending) {key : κ} {value : α}
    (found : map.find? key = some value) : map.insert key value = map := by
  refine (ascending.insert key value).ext ascending fun other => ?_
  by_cases same : other = key
  · rw [same, find?_insert_self, found]
  · exact find?_insert_of_ne same value map

private theorem find?_toList (tree : Std.TreeMap κ α) (key : κ) : find? key tree.toList = tree[key]? := by
  have ascending : Ascending tree.toList := Std.TreeMap.ordered_keys_toList
  apply Option.ext
  intro value
  rw [← ascending.mem_iff_find?, Std.TreeMap.mem_toList_iff_getElem?_eq_some]

private theorem toList_insert (tree : Std.TreeMap κ α) (key : κ) (value : α) :
    (tree.insert key value).toList = insert key value tree.toList := by
  have ascending : Ascending tree.toList := Std.TreeMap.ordered_keys_toList
  refine Ascending.ext Std.TreeMap.ordered_keys_toList (ascending.insert key value) ?_
  intro other
  rw [find?_toList, Std.TreeMap.getElem?_insert]
  by_cases same : other = key
  · subst same
    simp [find?_insert_self]
  · rw [find?_insert_of_ne same, find?_toList, if_neg]
    exact fun order => same (Std.LawfulEqOrd.eq_of_compare order).symm

/-- The tree does not show: the entries might as well be inserted one by one. -/
theorem ofEntries_eq_foldl (entries : List (κ × α)) :
    ofEntries entries = entries.foldl (fun map (key, value) => insert key value map) [] := by
  have grown : ∀ tree : Std.TreeMap κ α, (tree.insertMany entries).toList =
      entries.foldl (fun map (key, value) => insert key value map) tree.toList := by
    induction entries with
    | nil => intro tree; rw [Std.TreeMap.insertMany_nil, List.foldl_nil]
    | cons entry rest ih =>
      intro tree
      rw [Std.TreeMap.insertMany_cons, ih, toList_insert, List.foldl_cons]
  rw [ofEntries, Std.TreeMap.ofList_eq_insertMany_empty, grown]
  rfl

theorem mem_of_mem_ofEntries {entries : List (κ × α)} {entry : κ × α} (member : entry ∈ ofEntries entries) :
    entry ∈ entries := by
  have grown : ∀ (entries : List (κ × α)) (map : Assoc κ α),
      entry ∈ entries.foldl (fun map (key, value) => insert key value map) map → entry ∈ map ∨ entry ∈ entries := by
    intro entries
    induction entries with
    | nil => exact fun _ inside => .inl inside
    | cons first rest ih =>
      intro map inside
      rcases ih _ inside with here | later
      · exact (mem_insert here).elim (fun same => .inr (same ▸ List.mem_cons_self)) .inl
      · exact .inr (List.mem_cons_of_mem _ later)
  rw [ofEntries_eq_foldl] at member
  exact (grown entries [] member).resolve_left List.not_mem_nil

end Extensionality
end Assoc
end RtmpRelay
