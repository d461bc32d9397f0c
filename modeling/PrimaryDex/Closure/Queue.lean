namespace PrimaryDex

/-!
# Queues

A `Queue` grows at both ends. Its view is `Queue.toList`, from the front to the back, and each
operation has one equation through it.
-/

/-- A row of elements in two lists, the second one from the back. -/
structure Queue (α : Type) where
  front : List α
  back : List α

namespace Queue

variable {α : Type}

/-- The queue without elements. -/
def empty : Queue α := ⟨[], []⟩

/-- The elements from the front to the back. -/
def toList (q : Queue α) : List α := q.front ++ q.back.reverse

/-- Adds an element at the front. -/
def pushFront (a : α) (q : Queue α) : Queue α := ⟨a :: q.front, q.back⟩

/-- Adds an element at the back. -/
def pushBack (a : α) (q : Queue α) : Queue α := ⟨q.front, a :: q.back⟩

/-- The element at the front and the others. -/
def pop? (q : Queue α) : Option (α × Queue α) :=
  match q.front with
  | a :: front => some (a, ⟨front, q.back⟩)
  | [] =>
    match q.back.reverse with
    | [] => none
    | a :: front => some (a, ⟨front, []⟩)

/-- Removes the first occurrence of an element. -/
def erase [BEq α] (a : α) (q : Queue α) : Queue α := ⟨q.toList.erase a, []⟩

/-- An empty queue shows nothing. -/
@[simp] theorem toList_empty : (empty : Queue α).toList = [] := rfl

/-- An element pushed to the front comes before all others. -/
@[simp] theorem toList_pushFront (a : α) (q : Queue α) :
    (q.pushFront a).toList = a :: q.toList := rfl

/-- An element pushed to the back comes behind all others. -/
@[simp] theorem toList_pushBack (a : α) (q : Queue α) :
    (q.pushBack a).toList = q.toList ++ [a] := by
  simp [toList, pushBack]

/-- The view loses the same occurrence that the queue loses. -/
@[simp] theorem toList_erase [BEq α] (a : α) (q : Queue α) :
    (q.erase a).toList = q.toList.erase a := by
  simp [toList, erase]

/-- Nothing is popped exactly from a queue that shows nothing. -/
theorem pop?_eq_none_iff {q : Queue α} : q.pop? = none ↔ q.toList = [] := by
  obtain ⟨front, back⟩ := q
  cases front with
  | cons a front => simp [pop?, toList]
  -- With no front, popping turns the back around, as the view does.
  | nil =>
    simp only [pop?, toList, List.nil_append]
    split
    · rename_i h
      simp [h]
    · rename_i h
      simp [h]

/-- What is popped was the first element of the view, and the others stay in order. -/
theorem toList_of_pop? {q r : Queue α} {a : α} (h : q.pop? = some (a, r)) :
    q.toList = a :: r.toList := by
  obtain ⟨front, back⟩ := q
  cases front with
  | cons b front =>
    simp only [pop?, Option.some.injEq, Prod.mk.injEq] at h
    simp [toList, h.1, ← h.2]
  | nil =>
    simp only [pop?] at h
    split at h
    · simp at h
    · rename_i b front hb
      simp only [Option.some.injEq, Prod.mk.injEq] at h
      simp [toList, hb, h.1, ← h.2]

end Queue

end PrimaryDex
