import PrimaryDex.Closure.Pass
import PrimaryDex.Closure.Remaining

namespace PrimaryDex.Pass

/-!
# Ascending to the ancestors of a class

Before a resolved class is left, its ancestors are put in front of the pending classes, those reached
last at the very front, so that they follow the class directly.

* `Pass.Visit` — a turn of an ascent: a class is entered, and left when all above it was visited;
* `Pass.ascend` — visits ancestors depth first, superclass before interfaces, each once; resolved ones
  and those that the source does not have lead no further;
* `isResolved_ascend`, `outside_ascend` — it resolves nothing, and moves only what the source's
  classes mention.
-/

variable {source : ClassSource}

/-- A turn of an ascent. A class is at hand from when it is entered, and kept again when it is left. -/
inductive Visit (source : ClassSource) where
  | enter (n : ClassName)
  | leave (n : ClassName) (c : ClassFile) (hc : source.find n = .ok c)

/-- The class that a turn enters. -/
def Visit.entered? : Visit source → Option ClassName
  | enter n => some n
  | leave .. => none

/-- The classes that are yet to be entered. -/
def toEnter (stack : List (Visit source)) : List ClassName := stack.filterMap Visit.entered?

/-- Without turns, no class is entered. -/
@[simp] theorem toEnter_nil : toEnter ([] : List (Visit source)) = [] := rfl

/-- A class that is about to be entered comes first. -/
@[simp] theorem toEnter_enter (n : ClassName) (rest : List (Visit source)) :
    toEnter (.enter n :: rest) = n :: toEnter rest := rfl

/-- A class that is left was entered before. -/
@[simp] theorem toEnter_leave (n : ClassName) (c : ClassFile) (hc : source.find n = .ok c)
    (rest : List (Visit source)) : toEnter (.leave n c hc :: rest) = toEnter rest := rfl

/-- Classes that are put in front of the turns are entered in their order. -/
@[simp] theorem toEnter_map_append (ns : List ClassName) (rest : List (Visit source)) :
    toEnter (ns.map .enter ++ rest) = ns ++ toEnter rest := by
  induction ns with
  | nil => rfl
  | cons n ns ih => rw [List.map_cons, List.cons_append, toEnter_enter, ih, List.cons_append]

/-- Turns that only enter classes enter these. -/
@[simp] theorem toEnter_map (ns : List ClassName) :
    toEnter (ns.map .enter : List (Visit source)) = ns := by
  have h := toEnter_map_append ns ([] : List (Visit source))
  rwa [List.append_nil, toEnter_nil, List.append_nil] at h

/-- Moves to the front of the pending classes those that `stack` enters, and all their ancestors, that
    are neither `visited` nor resolved and that the source has. -/
def ascend (p : Pass source) (visited : Std.HashSet ClassName) (stack : List (Visit source)) :
    Except Failure (Pass source) :=
  match stack with
  | [] => .ok p
  | .leave n c hc :: rest => ascend (p.keep n c hc) visited rest
  | .enter n :: rest =>
    if p.isResolved n || visited.contains n then ascend p visited rest
    else match p.lookUp n with
      | .error failure => .error failure
      | .ok (q, none) => ascend q (visited.insert n) rest
      | .ok (q, some ⟨c, hc⟩) =>
        ascend (q.promote n) (visited.insert n) (c.ancestors.map .enter ++ .leave n c hc :: rest)
termination_by (remaining source.names visited.contains (toEnter stack), stack.length)
decreasing_by
  · exact Prod.Lex.right _ (by simp)
  · exact lex_remaining_tail _ _ _ _ (by simp)
  · refine Prod.Lex.left _ _ (remaining_lt ?_ ?_ rfl)
    · simp_all
    · intro m
      rw [Std.HashSet.contains_insert, Bool.or_comm, BEq.comm]
  · refine Prod.Lex.left _ _ (remaining_lt ?_ ?_ ?_)
    · simp_all
    · intro m
      rw [Std.HashSet.contains_insert, Bool.or_comm, BEq.comm]
    · rw [toEnter_map_append, toEnter_leave, outside_append,
        outside_of_subset (ClassSource.ancestors_subset_names hc), List.nil_append]
      rfl

/-- An ascent resolves nothing. -/
theorem isResolved_ascend {p q : Pass source} {visited : Std.HashSet ClassName}
    {stack : List (Visit source)} (h : p.ascend visited stack = .ok q) (m : ClassName) :
    q.isResolved m = p.isResolved m := by
  fun_induction ascend p visited stack with
  | case1 p => rw [Except.ok.injEq] at h; rw [h]
  | case2 p visited n c hc rest ih => rw [ih h, isResolved_keep]
  | case3 p visited n rest hn ih => exact ih h
  | case4 => simp at h
  | case5 p visited n rest hn q' hl ih => rw [ih h, isResolved_of_lookUp hl]
  | case6 p visited n rest hn q' c hc hl ih =>
    rw [ih h, isResolved_promote, isResolved_of_lookUp hl]

/-- Promoting one of the names moves nothing outside them. -/
theorem outside_promote (p : Pass source) {names : List ClassName} {n : ClassName}
    (hn : n ∈ names) :
    outside names (p.promote n).pending.toList = outside names p.pending.toList := by
  rw [pending_promote]
  have hd : ∀ xs, outside names (n :: xs) = outside names xs := by
    intro xs
    simp [outside, hn]
  -- The class is erased from its old place, or stood nowhere.
  rw [hd]
  split
  · exact outside_erase hn
  · rfl

/-- An ascent leaves what is pending outside the names of the source as it is. -/
theorem outside_ascend {p q : Pass source} {visited : Std.HashSet ClassName}
    {stack : List (Visit source)} (hs : toEnter stack ⊆ source.names)
    (h : p.ascend visited stack = .ok q) :
    outside source.names q.pending.toList = outside source.names p.pending.toList := by
  fun_induction ascend p visited stack with
  | case1 p => rw [Except.ok.injEq] at h; rw [h]
  | case2 p visited n c hc rest ih => rw [ih hs h, pending_keep]
  | case3 p visited n rest hn ih => exact ih (List.subset_of_cons_subset hs) h
  | case4 => simp at h
  | case5 p visited n rest hn q' hl ih =>
    rw [ih (List.subset_of_cons_subset hs) h, pending_of_lookUp hl]
  -- The ancestors of a class that was found are names of the source.
  | case6 p visited n rest hn q' c hc hl ih =>
    have hsub : toEnter (c.ancestors.map .enter ++ .leave n c hc :: rest) ⊆ source.names := by
      rw [toEnter_map_append, toEnter_leave]
      exact List.append_subset.2
        ⟨ClassSource.ancestors_subset_names hc, List.subset_of_cons_subset hs⟩
    rw [ih hsub h, outside_promote q' (hs (List.mem_cons_self ..)), pending_of_lookUp hl]

end PrimaryDex.Pass
