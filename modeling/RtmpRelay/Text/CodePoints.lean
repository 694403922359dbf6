/-!
Sets of characters as ranges of code points. A table lists its ranges in ascending order. A search tree made
of a table finds a character in as many steps as the tree is high, with the same answer as a look at all
ranges of the table.
-/

namespace RtmpRelay.Text

/-- Ranges with both ends included. -/
abbrev CodePoints := List (Nat × Nat)

namespace CodePoints

def contains (ranges : CodePoints) (char : Char) : Bool :=
  ranges.any fun (first, last) => first ≤ char.toNat && char.toNat ≤ last

/-- No range is empty, the first one starts at the floor or above it, and each later one above the one before. -/
def ascendsFrom (floor : Nat) : CodePoints → Bool
  | [] => true
  | (first, last) :: rest => floor ≤ first && first ≤ last && ascendsFrom (last + 1) rest

private theorem contains_below {ranges : CodePoints} {floor : Nat} {char : Char}
    (ascending : ranges.ascendsFrom floor = true) (below : char.toNat < floor) : ranges.contains char = false := by
  induction ranges generalizing floor with
  | nil => rfl
  | cons range rest ih =>
    obtain ⟨first, last⟩ := range
    simp only [ascendsFrom, Bool.and_eq_true, decide_eq_true_eq] at ascending
    obtain ⟨⟨above, nonempty⟩, further⟩ := ascending
    have outside : ¬first ≤ char.toNat := by omega
    simpa [contains, outside] using ih further (by omega)

/-- Each range of an ascending table stands above all ranges before it and below all ranges after it. -/
private theorem ascendsFrom_middle {lower upper : CodePoints} {floor first last : Nat}
    (ascending : (lower ++ (first, last) :: upper).ascendsFrom floor = true) :
    floor ≤ first ∧ first ≤ last ∧ lower.ascendsFrom floor = true ∧ (∀ range ∈ lower, range.2 < first) ∧
      upper.ascendsFrom (last + 1) = true := by
  induction lower generalizing floor with
  | nil =>
    simp only [List.nil_append, ascendsFrom, Bool.and_eq_true, decide_eq_true_eq] at ascending
    exact ⟨ascending.1.1, ascending.1.2, rfl, by simp, ascending.2⟩
  | cons range rest ih =>
    obtain ⟨start, stop⟩ := range
    simp only [List.cons_append, ascendsFrom, Bool.and_eq_true, decide_eq_true_eq] at ascending
    obtain ⟨⟨above, nonempty⟩, further⟩ := ascending
    obtain ⟨apart, proper, ascending, bounded, beyond⟩ := ih further
    refine ⟨by omega, proper, by simp [ascendsFrom, above, nonempty, ascending], ?_, beyond⟩
    intro range member
    rcases List.mem_cons.mp member with rfl | inside
    · exact apart
    · exact bounded range inside

/-- A balanced tree of ranges. -/
inductive SearchTree where
  | empty
  | node (lower : SearchTree) (first last : Nat) (upper : SearchTree)

namespace SearchTree

def ranges : SearchTree → CodePoints
  | empty => []
  | node lower first last upper => lower.ranges ++ (first, last) :: upper.ranges

def contains : SearchTree → Char → Bool
  | empty, _ => false
  | node lower first last upper, char =>
    if char.toNat < first then lower.contains char else char.toNat ≤ last || upper.contains char

/-- A tree of at most some height over the front of a table, and the ranges for which it has no room. -/
def fill : (height : Nat) → CodePoints → SearchTree × CodePoints
  | 0, table => (empty, table)
  | height + 1, table =>
    match fill height table with
    | (lower, []) => (lower, [])
    | (lower, (first, last) :: rest) =>
      let (upper, left) := fill height rest
      (node lower first last upper, left)

/-- A table with fewer than 1024 ranges as a tree. -/
def ofTable (table : CodePoints) : SearchTree :=
  (fill 10 table).1

theorem contains_eq {tree : SearchTree} {floor : Nat} (ascending : tree.ranges.ascendsFrom floor = true)
    (char : Char) : tree.contains char = tree.ranges.contains char := by
  induction tree generalizing floor with
  | empty => rfl
  | node lower first last upper lowerIh upperIh =>
    obtain ⟨-, proper, lowerAscends, bounded, upperAscends⟩ := ascendsFrom_middle ascending
    have split : (node lower first last upper).ranges.contains char =
        (lower.ranges.contains char || (decide (first ≤ char.toNat) && decide (char.toNat ≤ last) ||
          upper.ranges.contains char)) := by
      simp [ranges, CodePoints.contains]
    rw [split, contains]
    by_cases under : char.toNat < first
    · have outside : ¬first ≤ char.toNat := by omega
      simp [under, outside, lowerIh lowerAscends, contains_below upperAscends (show char.toNat < last + 1 by omega)]
    · have absent : lower.ranges.contains char = false := by
        simp only [CodePoints.contains, List.any_eq_false, Bool.and_eq_true, decide_eq_true_eq]
        intro range member inside
        have := bounded range member
        omega
      simp [under, absent, Nat.le_of_not_lt under, upperIh upperAscends]

end SearchTree
end CodePoints
end RtmpRelay.Text
