import PrimaryDex.Proofs.Closure.Coherence

namespace PrimaryDex

/-!
# The plain algorithm

What a pass computes can be said with two lists alone. The plain algorithm searches them to tell what
is resolved or pending, and it asks the source anew whenever it needs a class.

* `Stage.ascend`, `Stage.resolve`, `Stage.run` — the plain counterparts of an ascent, of settling a
  class, and of a run;
* `ascend_eq`, `resolve_eq` — the first two through `ClassSource.lineage` and `Stage.settle`;
* `Step.run_eq`, `Fails.run_eq` — the plain run follows the steps of a stage, and fails where it does;
* `ClassSource.closure_eq_plainClosure` — so a pass, with all its records, has the same result.
-/

namespace Stage

variable {source : ClassSource} {roots : List ClassName}

/-- Puts those of `stack`, and all their ancestors, in front of the pending classes, unless they are
    `visited` or resolved or the source does not have them. -/
def ascend (source : ClassSource) (s : Stage) (visited stack : List ClassName) :
    Except Fault Stage :=
  match stack with
  | [] => .ok s
  | n :: rest =>
    if n ∈ s.resolved ∨ n ∈ visited then ascend source s visited rest
    else match _hf : source.find n with
      | .ok c => ascend source (s.promote [n]) (n :: visited) (c.ancestors ++ rest)
      | .error (.classNotFound _) => ascend source s (n :: visited) rest
      | .error fault => .error fault
termination_by (remaining source.names visited.contains stack, stack.length)
decreasing_by
  · exact lex_remaining_tail _ _ _ _ (by simp)
  · refine Prod.Lex.left _ _ (remaining_lt ?_ ?_ ?_)
    · simp_all
    · intro m
      rw [List.contains_cons, Bool.or_comm]
    · rw [outside_append, outside_of_subset (ClassSource.ancestors_subset_names _hf),
        List.nil_append]
  · refine Prod.Lex.left _ _ (remaining_lt ?_ ?_ rfl)
    · simp_all
    · intro m
      rw [List.contains_cons, Bool.or_comm]

/-- Resolves a class that was found. -/
def resolve (source : ClassSource) (s : Stage) (n : ClassName) (c : ClassFile) :
    Except Fault Stage := do
  let t ← ascend source ⟨s.resolved ++ [n], s.pending⟩ [] c.ancestors
  let ns ← c.referenced
  return ns.foldl enqueue t

/-! ### An ascent and a lineage -/

/-- The barred classes of an ascent, one more visited. -/
theorem barred_cons (s : Stage) (visited : List ClassName) (n : ClassName) :
    (fun m => decide (m ∈ s.resolved ∨ m ∈ n :: visited))
      = fun m => decide (m ∈ s.resolved ∨ m ∈ visited) || m == n := by
  funext m
  rw [Bool.eq_iff_iff]
  simp only [List.mem_cons, decide_eq_true_eq, Bool.or_eq_true, beq_iff_eq]
  grind

/-- An ascent that promotes class by class promotes a lineage. -/
theorem ascend_eq (s : Stage) (visited stack : List ClassName) :
    ascend source s visited stack
      = s.promote <$> source.lineage (fun m => decide (m ∈ s.resolved ∨ m ∈ visited)) stack := by
  fun_induction ascend source s visited stack with
  | case1 s visited =>
    rw [ClassSource.lineage_nil]
    exact congrArg Except.ok (promote_nil s).symm
  | case2 s visited n rest hn ih =>
    rw [ih, ClassSource.lineage_cons_of_barred (by simpa using hn)]
  | case3 s visited n rest hn c hc ih =>
    rw [ih, resolved_promote, barred_cons, ClassSource.lineage_cons_of_find (by simpa using hn) hc]
    cases hl : source.lineage (fun m => decide (m ∈ s.resolved ∨ m ∈ visited) || m == n)
        (c.ancestors ++ rest) with
    | error fault => rfl
    | ok ns =>
      -- The rest of the ascent has `n` barred, so it cannot move `n` again.
      have hns : n ∉ ns := fun hm => by
        simpa using (ClassSource.free_of_mem_lineage hl n hm).2
      exact congrArg Except.ok (promote_promote s hns)
  | case4 s visited n rest hn m hm ih =>
    rw [ih, barred_cons, ClassSource.lineage_cons_of_lacks (by simpa using hn) ⟨m, hm⟩]
  | case5 s visited n rest hn fault hl hf =>
    rw [ClassSource.lineage_cons_of_error (by simpa using hn) hf hl]
    rfl

/-- Resolving a class settles it with its lineage outside the resolved classes. -/
theorem resolve_eq (s : Stage) (n : ClassName) (c : ClassFile) :
    resolve source s n c = do
      let lineage ← source.lineage (s.resolved ++ [n]).contains c.ancestors
      let referenced ← c.referenced
      return s.settle n lineage referenced := by
  -- Nothing was visited before the ascent, so only the resolved classes are barred.
  have hbar : (fun m => decide (m ∈ s.resolved ++ [n] ∨ m ∈ ([] : List ClassName)))
      = (s.resolved ++ [n]).contains := by
    funext m
    rw [Bool.eq_iff_iff]
    simp
  rw [resolve, ascend_eq, hbar]
  cases source.lineage (s.resolved ++ [n]).contains c.ancestors <;> rfl

/-- A class is resolved if its lineage and its references are found, by settling it with both. -/
theorem exists_of_resolve_eq_ok {s t : Stage} {n : ClassName} {c : ClassFile}
    (h : resolve source s n c = .ok t) :
    ∃ lineage referenced, source.lineage (s.resolved ++ [n]).contains c.ancestors = .ok lineage
      ∧ c.referenced = .ok referenced ∧ t = s.settle n lineage referenced := by
  rw [resolve_eq] at h
  obtain ⟨lineage, hl, h⟩ := bind_eq_ok_iff.1 h
  obtain ⟨referenced, hr, h⟩ := bind_eq_ok_iff.1 h
  exact ⟨lineage, referenced, hl, hr, (Except.ok.inj h).symm⟩

/-- Settling a class adds no name from outside those that can be mentioned. -/
theorem outside_settle (s : Stage) (n : ClassName) {names lineage referenced : List ClassName}
    (hl : lineage ⊆ names) (hr : referenced ⊆ names) :
    outside names (s.settle n lineage referenced).pending = outside names s.pending := by
  obtain ⟨added, hs, hadd⟩ := exists_settle_eq s n lineage referenced
  have hrev : lineage.reverse ⊆ names := fun m hm => hl (List.mem_reverse.1 hm)
  have hadded : added ⊆ names := fun m hm => hr ((hadd m).1 hm).1
  have hfilter : outside names (s.pending.filter (· ∉ lineage)) = outside names s.pending := by
    rw [outside, outside, List.filter_filter]
    refine List.filter_congr fun m _ => ?_
    by_cases hm : m ∈ lineage
    · simp [hm, hl hm]
    · simp [hm]
  rw [hs, outside_append, outside_append, outside_of_subset hrev, outside_of_subset hadded, hfilter,
    List.nil_append, List.append_nil]

/-- What settling a class promotes and enqueues is mentioned by a class of the source. -/
theorem mentions_of_resolve_eq_ok {s t : Stage} {n : ClassName} {c : ClassFile}
    (hc : source.find n = .ok c) (h : resolve source s n c = .ok t) :
    t.resolved = s.resolved ++ [n]
      ∧ outside source.names t.pending = outside source.names s.pending := by
  obtain ⟨lineage, referenced, hl, hr, rfl⟩ := exists_of_resolve_eq_ok h
  -- The ancestors of a class are names of the source, and so are theirs.
  have hlin : lineage ⊆ source.names := fun m hm =>
    ClassSource.forall_mem_lineage hl (S := (· ∈ source.names))
      (fun _ ha => ClassSource.ancestors_subset_names hc ha)
      (fun _ _ hd _ ha => ClassSource.ancestors_subset_names hd ha) m hm
  have href := ClassSource.referenced_subset_names hc hr
  exact ⟨resolved_settle s n lineage referenced, outside_settle s n hlin href⟩

/-! ### The plain run -/

/-- Resolves pending classes until none is left. A root must be found. -/
def run (source : ClassSource) (roots : List ClassName) : Stage → Except Fault Stage
  | ⟨resolved, []⟩ => .ok ⟨resolved, []⟩
  | ⟨resolved, n :: rest⟩ =>
    if _hn : n ∈ resolved then run source roots ⟨resolved, rest⟩
    else match _hf : source.find n with
      | .error (.classNotFound _) =>
        if n ∈ roots then .error (.missingRoot n) else run source roots ⟨resolved, rest⟩
      | .error fault => .error fault
      | .ok c =>
        match _ht : resolve source ⟨resolved, rest⟩ n c with
        | .error fault => .error fault
        | .ok t => run source roots t
termination_by s => (remaining source.names s.resolved.contains s.pending, s.pending.length)
decreasing_by
  · exact lex_remaining_tail _ _ _ _ (by simp)
  · exact lex_remaining_tail _ _ _ _ (by simp)
  · -- One class more is resolved, and what is enqueued besides is mentioned by the source.
    obtain ⟨hr, ho⟩ := mentions_of_resolve_eq_ok _hf _ht
    refine Prod.Lex.left _ _ (remaining_lt (by simpa using _hn) (fun m => ?_) ho)
    rw [hr, Bool.eq_iff_iff]
    simp

/-! ### The run along the steps -/

/-- The run ends where nothing is pending. -/
theorem run_nil (resolved : List ClassName) :
    run source roots ⟨resolved, []⟩ = .ok ⟨resolved, []⟩ := by
  rw [run]

/-- A class that the source lacks is left out, unless it is a root. -/
theorem run_cons_of_lacks {n : ClassName} {resolved rest : List ClassName} (hn : n ∉ resolved)
    (hl : source.Lacks n) : run source roots ⟨resolved, n :: rest⟩
      = if n ∈ roots then .error (.missingRoot n) else run source roots ⟨resolved, rest⟩ := by
  obtain ⟨m, hm⟩ := hl
  rw [run, dif_neg hn]
  split <;> simp_all

/-- Any other fault of the source is the run's. -/
theorem run_cons_of_error {n : ClassName} {resolved rest : List ClassName} {fault : Fault}
    (hn : n ∉ resolved) (hf : source.find n = .error fault) (hl : ∀ m, fault ≠ .classNotFound m) :
    run source roots ⟨resolved, n :: rest⟩ = .error fault := by
  rw [run, dif_neg hn]
  split
  · rename_i m hm
    rw [hf, Except.error.injEq] at hm
    exact absurd hm (hl m)
  · simp_all
  · simp_all

/-- A class that is found is resolved before the others. -/
theorem run_cons_of_find {n : ClassName} {resolved rest : List ClassName} {c : ClassFile}
    (hn : n ∉ resolved) (hc : source.find n = .ok c) :
    run source roots ⟨resolved, n :: rest⟩
      = resolve source ⟨resolved, rest⟩ n c >>= run source roots := by
  rw [run, dif_neg hn]
  split
  · simp_all
  · simp_all
  · rename_i d hd
    obtain rfl := Except.ok.inj (hc.symm.trans hd)
    split <;> rename_i ht <;> rw [ht] <;> rfl

/-- A step of a stage does not change where the plain run ends. -/
theorem Step.run_eq {s t : Stage} (h : Step source roots s t) (hs : s.Tidy) :
    run source roots s = run source roots t := by
  have hn := hs.not_resolved
  cases h with
  | drop hl hr => rw [run_cons_of_lacks (hn _ (List.mem_cons_self ..)) hl, if_neg hr]
  | settle hc hl hr =>
    rw [run_cons_of_find (hn _ (List.mem_cons_self ..)) hc, resolve_eq, hl, hr]
    rfl

/-- Many steps do not change it either. -/
theorem Steps.run_eq {s t : Stage} (h : Steps source roots s t) (hs : s.Tidy) :
    run source roots s = run source roots t := by
  induction h with
  | refl => rfl
  | tail hsteps ht ih => rw [ih, ht.run_eq (Steps.tidy hsteps hs)]

/-- The plain run ends with the fault of a stage that fails. -/
theorem Fails.run_eq {s : Stage} {fault : Fault} (h : Fails source roots s fault) (hs : s.Tidy) :
    run source roots s = .error fault := by
  have hn := hs.not_resolved
  cases h with
  | missingRoot hl hr => rw [run_cons_of_lacks (hn _ (List.mem_cons_self ..)) hl, if_pos hr]
  | found hf hl => exact run_cons_of_error (hn _ (List.mem_cons_self ..)) hf hl
  | lineage hc hl =>
    rw [run_cons_of_find (hn _ (List.mem_cons_self ..)) hc, resolve_eq, hl]
    rfl
  | referenced hc hl hr =>
    rw [run_cons_of_find (hn _ (List.mem_cons_self ..)) hc, resolve_eq, hl, hr]
    rfl

end Stage

namespace ClassSource

/-- The closure of some roots by the plain algorithm. -/
def plainClosure (source : ClassSource) (roots : List ClassName) :
    Except Fault (List ClassName) :=
  (·.resolved) <$> Stage.run source roots (Stage.start roots)

/-- **The records make no difference.** A pass, with its sets, the classes that it keeps and the names
    that it knows to be missing, has the same result as the plain algorithm. -/
theorem closure_eq_plainClosure (source : ClassSource) (roots : List ClassName) :
    source.closure roots = source.plainClosure roots := by
  have htidy := Stage.tidy_start roots
  unfold plainClosure
  cases hc : source.closure roots with
  | ok out =>
    rw [(steps_of_closure hc).run_eq htidy, Stage.run_nil]
    rfl
  | error fault =>
    obtain ⟨s, hs, hf⟩ := exists_fails_of_closure hc
    rw [hs.run_eq htidy, hf.run_eq (hs.tidy htidy)]
    rfl

end ClassSource

end PrimaryDex
