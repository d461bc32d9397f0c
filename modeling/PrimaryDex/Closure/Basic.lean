import PrimaryDex.Closure.Ascent

namespace PrimaryDex

/-!
# Closures

The closure of some roots holds all classes that are reached from them through ancestors and
references. Classes that the source does not have are taken for the platform's and left out, unless
they are roots.

* `Pass.settle` — resolves one class that was found: its ancestors go to the front of the pending
  classes, its references to the back;
* `Pass.run` — settles pending classes until none is left;
* `ClassSource.closure` — the closure of some roots in the order of resolution.
-/

namespace Pass

variable {source : ClassSource}

/-- Resolves a class that was found. -/
def settle (p : Pass source) (n : ClassName) (c : ClassFile) : Except Failure (Pass source) :=
  match (p.resolve n).ascend ∅ (c.ancestors.map .enter) with
  | .error failure => .error failure
  | .ok q =>
    match c.referenced with
    | .ok ns => .ok (ns.foldl enqueue q)
    | .error fault => .error ⟨fault, q.asked⟩

/-- Enqueuing classes resolves none of them. -/
theorem isResolved_foldl_enqueue (p : Pass source) (ns : List ClassName) (m : ClassName) :
    (ns.foldl enqueue p).isResolved m = p.isResolved m := by
  induction ns generalizing p with
  | nil => rfl
  | cons n ns ih => rw [List.foldl_cons, ih, isResolved_enqueue]

/-- Enqueuing names adds nothing outside them. -/
theorem outside_foldl_enqueue (p : Pass source) {names ns : List ClassName} (h : ns ⊆ names) :
    outside names (ns.foldl enqueue p).pending.toList = outside names p.pending.toList := by
  induction ns generalizing p with
  | nil => rfl
  | cons n ns ih =>
    have hn : n ∈ names := h (List.mem_cons_self ..)
    rw [List.foldl_cons, ih _ (List.subset_of_cons_subset h), pending_enqueue, outside_append]
    split <;> simp [outside, hn]

/-- Settling a class resolves that class only. -/
theorem isResolved_settle {p q : Pass source} {n : ClassName} {c : ClassFile}
    (h : p.settle n c = .ok q) (m : ClassName) :
    q.isResolved m = (p.isResolved m || m == n) := by
  simp only [settle] at h
  split at h
  · simp at h
  · rename_i r hr
    split at h
    · rw [Except.ok.injEq] at h
      rw [← h, isResolved_foldl_enqueue, isResolved_ascend hr, isResolved_resolve]
    · simp at h

/-- Settling a class of the source adds nothing to what is pending outside its names. -/
theorem outside_settle {p q : Pass source} {n : ClassName} {c : ClassFile}
    (hc : source.find n = .ok c) (h : p.settle n c = .ok q) :
    outside source.names q.pending.toList = outside source.names p.pending.toList := by
  simp only [settle] at h
  split at h
  · simp at h
  · rename_i r hr
    split at h
    · rename_i ns hns
      -- The ascent starts with the ancestors, which are names of the source.
      have hup : toEnter (c.ancestors.map .enter : List (Visit source)) ⊆ source.names := by
        rw [toEnter_map]
        exact ClassSource.ancestors_subset_names hc
      rw [Except.ok.injEq] at h
      rw [← h, outside_foldl_enqueue _ (ClassSource.referenced_subset_names hc hns),
        outside_ascend hup hr, pending_resolve]
    · simp at h

/-- Settles pending classes until none is left. A root must be found. -/
def run (roots : Std.HashSet ClassName) (p : Pass source) : Except Failure (Pass source) :=
  match _hp : p.pop? with
  | none => .ok p
  | some (n, q) =>
    if _hr : q.isResolved n then run roots q
    else match _hl : q.lookUp n with
      | .error failure => .error failure
      | .ok (q', none) =>
        if roots.contains n then .error ⟨.missingRoot n, q'.asked⟩ else run roots q'
      | .ok (q', some ⟨c, _hc⟩) =>
        match _hs : q'.settle n c with
        | .error failure => .error failure
        | .ok r => run roots r
termination_by (remaining source.names p.isResolved p.pending.toList, p.pending.toList.length)
decreasing_by
  · -- The class was resolved before: the pending list gets shorter.
    have hi : q.isResolved = p.isResolved := funext (isResolved_of_pop? _hp)
    rw [hi, pending_of_pop? _hp]
    exact lex_remaining_tail _ _ _ _ (by simp)
  · -- The class is missing: the pending list gets shorter.
    have hi : q'.isResolved = p.isResolved :=
      funext fun m => (isResolved_of_lookUp _hl m).trans (isResolved_of_pop? _hp m)
    rw [hi, pending_of_lookUp _hl, pending_of_pop? _hp]
    exact lex_remaining_tail _ _ _ _ (by simp)
  · -- The class is settled: one name less remains.
    have hi : ∀ m, q'.isResolved m = p.isResolved m := fun m =>
      (isResolved_of_lookUp _hl m).trans (isResolved_of_pop? _hp m)
    rw [pending_of_pop? _hp]
    refine Prod.Lex.left _ _ (remaining_lt ?_ ?_ ?_)
    · rw [← isResolved_of_pop? _hp]
      simpa using _hr
    · intro m
      rw [isResolved_settle _hs, hi]
    · rw [outside_settle _hc _hs, pending_of_lookUp _hl]

end Pass

namespace ClassSource

/-- The pass over some roots from its start to its end. -/
def pass (source : ClassSource) (roots : List ClassName) : Except Failure (Pass source) :=
  (roots.foldl Pass.enqueue (Pass.start source)).run (.ofList roots)

/-- The closure of some roots, in the order in which its classes are resolved. -/
def closure (source : ClassSource) (roots : List ClassName) : Except Fault (List ClassName) :=
  match source.pass roots with
  | .ok p => .ok p.resolved.toList
  | .error failure => .error failure.fault

end ClassSource

/-- The closure of some roots over a class path. -/
def ClassPath.closure (fs : FileSystem) (cp : ClassPath) (roots : List ClassName) :
    Except Fault (List ClassName) :=
  (cp.source fs).closure roots

end PrimaryDex
