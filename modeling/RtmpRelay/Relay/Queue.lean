/-!
Queues that are cheap at both ends: what arrived first is taken first, and the size is known without counting.
-/

namespace RtmpRelay

/-- The older part stands in the order of arrival and the newer one in reverse. That one is turned round when
the older part has run out, so each item is moved once. -/
structure Queue (α : Type u) where
  older : List α
  newer : List α
  size : Nat
  size_eq : size = older.length + newer.length
deriving DecidableEq

namespace Queue
variable {α : Type u}

def ofList (items : List α) : Queue α :=
  ⟨items, [], items.length, rfl⟩

/-- All items in the order of their arrival. -/
def toList (queue : Queue α) : List α :=
  queue.older ++ queue.newer.reverse

def push (queue : Queue α) (item : α) : Queue α :=
  ⟨queue.older, item :: queue.newer, queue.size + 1, by simp [queue.size_eq, Nat.add_assoc]⟩

/-- Takes the item that has waited longest. -/
def pop? : Queue α → Option (α × Queue α)
  | ⟨item :: older, newer, size, size_eq⟩ =>
    some (item, ⟨older, newer, size - 1, by simp only [List.length_cons] at size_eq; omega⟩)
  | ⟨[], newer, _, _⟩ =>
    match newer.reverse with
    | item :: older => some (item, ofList older)
    | [] => none

theorem size_eq_length (queue : Queue α) : queue.size = queue.toList.length := by
  simp [toList, queue.size_eq]

theorem toList_ofList (items : List α) : (ofList items).toList = items := by
  simp [ofList, toList]

theorem toList_push (queue : Queue α) (item : α) : (queue.push item).toList = queue.toList ++ [item] := by
  simp [push, toList]

theorem pop?_eq_none_iff {queue : Queue α} : queue.pop? = none ↔ queue.toList = [] := by
  obtain ⟨older, newer, size, size_eq⟩ := queue
  cases older with
  | cons item older => simp [pop?, toList]
  | nil =>
    cases turned : newer.reverse <;> simp [pop?, toList, turned]

theorem toList_of_pop? {queue rest : Queue α} {item : α} (taken : queue.pop? = some (item, rest)) :
    queue.toList = item :: rest.toList := by
  obtain ⟨older, newer, size, size_eq⟩ := queue
  cases older with
  | cons first older =>
    simp only [pop?, Option.some.injEq, Prod.mk.injEq] at taken
    obtain ⟨rfl, rfl⟩ := taken
    rfl
  | nil =>
    cases turned : newer.reverse with
    | nil => simp [pop?, turned] at taken
    | cons first others =>
      simp only [pop?, turned, Option.some.injEq, Prod.mk.injEq] at taken
      obtain ⟨rfl, rfl⟩ := taken
      rw [toList_ofList, toList, turned, List.nil_append]

end Queue
end RtmpRelay
