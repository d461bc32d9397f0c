import Mathlib.Data.List.Forall2
import PrimaryDex.Proofs.Closure.LookUps

namespace PrimaryDex

/-!
# Passes over sources that answer alike

What a pass comes to depends on its source only through the answers to what it asks. Names that are
not asked for may be found, missed or at fault in one source and not in the other.

* `ClassSource.AgreesOn` — two sources give the same answers for some names;
* `Pass.asked_subset_ascend`, `Pass.asked_subset_run` — what was asked for stays on record, so that
  the names on record in the end are those that matter;
* `Pass.Same`, `Pass.Alike` — two passes over different sources stand at the same point, and two
  outcomes are the same. Each operation keeps the point the same (`Same.promote` and so on), and so
  does a look-up over sources that agree (`Same.exists_lookUp_eq_some` and so on);
* `Pass.alike_ascend`, `Pass.alike_settle`, `Pass.alike_run` — hence sources that agree lead from the
  same point to the same outcome;
* `ClassSource.closure_eq_of_agreesOn` — and to the same closure or the same fault.
-/

/-- The sources give the same answers for some names. -/
def ClassSource.AgreesOn (source other : ClassSource) (names : List ClassName) : Prop :=
  ∀ n ∈ names, other.find n = source.find n

/-- Sources that agree on some names agree on fewer. -/
theorem ClassSource.AgreesOn.mono {source other : ClassSource} {names more : List ClassName}
    (h : source.AgreesOn other more) (hsub : names ⊆ more) : source.AgreesOn other names :=
  fun n hn => h n (hsub hn)

namespace Pass

variable {source other : ClassSource}

/-! ### What is on record -/

/-- The names that the source was asked for when something is over. -/
def askedBy : Except Failure (Pass source) → List ClassName
  | .ok p => p.asked
  | .error failure => failure.asked

/-- Resolving a class asks for nothing. -/
@[simp] theorem asked_resolve (p : Pass source) (n : ClassName) :
    (p.resolve n).asked = p.asked := by
  unfold resolve
  split <;> rfl

/-- Promoting a class asks for nothing. -/
@[simp] theorem asked_promote (p : Pass source) (n : ClassName) :
    (p.promote n).asked = p.asked := by
  unfold promote
  split <;> rfl

/-- Enqueuing classes asks for nothing. -/
@[simp] theorem asked_foldl_enqueue (p : Pass source) (ns : List ClassName) :
    (ns.foldl enqueue p).asked = p.asked := by
  induction ns generalizing p with
  | nil => rfl
  | cons n ns ih =>
    rw [List.foldl_cons, ih]
    unfold enqueue
    split <;> rfl

/-- Taking the first pending class asks for nothing. -/
theorem asked_of_pop? {p q : Pass source} {n : ClassName} (h : p.pop? = some (n, q)) :
    q.asked = p.asked := by
  unfold pop? at h
  split at h
  · simp at h
  · simp only [Option.some.injEq, Prod.mk.injEq] at h
    rw [← h.2]

/-- A look-up keeps on record what was asked for before. -/
theorem asked_subset_lookUp {p q : Pass source} {n : ClassName} {found : Option (Found source n)}
    (h : p.lookUp n = .ok (q, found)) : p.asked ⊆ q.asked := by
  cases lookedUp_of_eq h with
  | kept | known => exact List.Subset.refl _
  | found | notFound => exact List.subset_cons_self _ _

theorem asked_subset_of_lookUp_eq_error {p : Pass source} {n : ClassName} {failure : Failure}
    (h : p.lookUp n = .error failure) : p.asked ⊆ failure.asked := by
  cases lookedUp_of_eq h with
  | failed => exact List.subset_cons_self _ _

/-- An ascent keeps on record what was asked for before, however it ends. -/
theorem asked_subset_ascend (p : Pass source) (visited : Std.HashSet ClassName)
    (stack : List (Visit source)) : p.asked ⊆ askedBy (p.ascend visited stack) := by
  fun_induction ascend p visited stack with
  | case1 p => exact List.Subset.refl _
  | case2 p visited n c hc rest ih => exact ih
  | case3 p visited n rest hn ih => exact ih
  | case4 p visited n rest hn failure hl => exact asked_subset_of_lookUp_eq_error hl
  | case5 p visited n rest hn q hl ih => exact List.Subset.trans (asked_subset_lookUp hl) ih
  | case6 p visited n rest hn q c hc hl ih =>
    rw [asked_promote] at ih
    exact List.Subset.trans (asked_subset_lookUp hl) ih

/-- Besides the ascent, nothing is asked for in settling a class. -/
theorem askedBy_settle (p : Pass source) (n : ClassName) (c : ClassFile) :
    askedBy (p.settle n c) = askedBy ((p.resolve n).ascend ∅ (c.ancestors.map .enter)) := by
  unfold settle
  split
  · rename_i failure hf
    rw [hf]
  · rename_i q hq
    rw [hq]
    split
    · exact asked_foldl_enqueue ..
    · rfl

/-- Settling a class keeps on record what was asked for before. -/
theorem asked_subset_settle (p : Pass source) (n : ClassName) (c : ClassFile) :
    p.asked ⊆ askedBy (p.settle n c) := by
  rw [askedBy_settle]
  have hup := asked_subset_ascend (p.resolve n) ∅ (c.ancestors.map .enter)
  rwa [asked_resolve] at hup

/-- A run keeps on record what was asked for before. -/
theorem asked_subset_run (p : Pass source) (roots : Std.HashSet ClassName) :
    p.asked ⊆ askedBy (p.run roots) := by
  fun_induction run roots p with
  | case1 p hp => exact List.Subset.refl _
  | case2 p n q hp hr ih =>
    rwa [← asked_of_pop? hp]
  | case3 p n q hp hr failure hl =>
    rw [← asked_of_pop? hp]
    exact asked_subset_of_lookUp_eq_error hl
  | case4 p n q hp hr q' hl hroot =>
    rw [← asked_of_pop? hp]
    exact asked_subset_lookUp hl
  | case5 p n q hp hr q' hl hroot ih =>
    rw [← asked_of_pop? hp]
    exact List.Subset.trans (asked_subset_lookUp hl) ih
  | case6 p n q hp hr q' c hc hl failure hs =>
    have hset := asked_subset_settle q' n c
    rw [hs] at hset
    rw [← asked_of_pop? hp]
    exact List.Subset.trans (asked_subset_lookUp hl) hset
  -- The look-up, the ascent and the rest of the run follow on each other.
  | case7 p n q hp hr q' c hc hl r hs ih =>
    have hset := asked_subset_settle q' n c
    rw [hs] at hset
    rw [← asked_of_pop? hp]
    exact List.Subset.trans (asked_subset_lookUp hl) (List.Subset.trans hset ih)

/-! ### Passes at the same point -/

/-- Two passes over different sources stand at the same point. -/
structure Same (p : Pass source) (q : Pass other) : Prop where
  resolved : p.resolved = q.resolved
  resolvedSet : p.resolvedSet = q.resolvedSet
  pending : p.pending = q.pending
  queued : p.queued = q.queued
  loaded : p.loaded = q.loaded
  missing : p.missing = q.missing
  asked : p.asked = q.asked

/-- Two turns do the same. -/
inductive Visit.Same : Visit source → Visit other → Prop where
  | enter (n : ClassName) : Same (.enter n) (.enter n)
  | leave (n : ClassName) (c : ClassFile) (hc : source.find n = .ok c)
      (hc' : other.find n = .ok c) : Same (.leave n c hc) (.leave n c hc')

/-- Turns that enter the same classes do the same. -/
theorem Visit.same_map_enter (ns : List ClassName) :
    List.Forall₂ Visit.Same (ns.map .enter : List (Visit source))
      (ns.map .enter : List (Visit other)) := by
  induction ns with
  | nil => exact .nil
  | cons n ns ih => exact .cons (.enter n) ih

/-- Two outcomes are the same. -/
inductive Alike : Except Failure (Pass source) → Except Failure (Pass other) → Prop where
  | ok {p : Pass source} {q : Pass other} (h : Same p q) : Alike (.ok p) (.ok q)
  | error (failure : Failure) : Alike (.error failure) (.error failure)

/-- An outcome like a failure is that failure. -/
theorem Alike.eq_error {failure : Failure} {y : Except Failure (Pass other)}
    (h : Alike (.error failure : Except Failure (Pass source)) y) : y = .error failure := by
  cases h
  rfl

/-- An outcome like that of a pass is one at the same point. -/
theorem Alike.exists_eq_ok {p : Pass source} {y : Except Failure (Pass other)}
    (h : Alike (.ok p) y) : ∃ q, y = .ok q ∧ Same p q := by
  cases h with
  | ok h => exact ⟨_, rfl, h⟩

namespace Same

variable {p : Pass source} {q : Pass other}

/-- At the same point, the same classes are resolved. -/
theorem isResolved (h : Same p q) (n : ClassName) : p.isResolved n = q.isResolved n := by
  rw [Pass.isResolved, Pass.isResolved, h.resolvedSet]

/-- Resolving a class leads from the same point to the same point. -/
theorem resolve (h : Same p q) (n : ClassName) : Same (p.resolve n) (q.resolve n) := by
  unfold Pass.resolve
  rw [h.isResolved]
  split
  · exact h
  · exact { h with resolved := by rw [h.resolved], resolvedSet := by rw [h.resolvedSet] }

/-- At the same point, the same classes are recorded as pending. -/
theorem contains_queued (h : Same p q) (n : ClassName) :
    p.queued.contains n = q.queued.contains n := by
  rw [h.queued]

/-- Promoting a class leads to the same point. -/
theorem promote (h : Same p q) (n : ClassName) : Same (p.promote n) (q.promote n) := by
  unfold Pass.promote
  rw [h.contains_queued]
  split
  · exact { h with pending := by rw [h.pending] }
  · exact { h with pending := by rw [h.pending], queued := by rw [h.queued] }

/-- Enqueuing a class leads to the same point. -/
theorem enqueue (h : Same p q) (n : ClassName) : Same (p.enqueue n) (q.enqueue n) := by
  unfold Pass.enqueue
  rw [h.isResolved, h.contains_queued]
  split
  · exact h
  · exact { h with pending := by rw [h.pending], queued := by rw [h.queued] }

/-- Enqueuing many classes leads to the same point. -/
theorem foldl_enqueue (h : Same p q) (ns : List ClassName) :
    Same (ns.foldl Pass.enqueue p) (ns.foldl Pass.enqueue q) := by
  induction ns generalizing p q with
  | nil => exact h
  | cons n ns ih => exact ih (h.enqueue n)

/-- Keeping a class that both sources have leads to the same point. -/
theorem keep (h : Same p q) {n : ClassName} {c : ClassFile} (hc : source.find n = .ok c)
    (hc' : other.find n = .ok c) : Same (p.keep n c hc) (q.keep n c hc') :=
  { h with loaded := congrArg (·.insert n c) h.loaded }

/-- Taking a class out leads to the same point. -/
theorem release (h : Same p q) (n : ClassName) : Same (p.release n) (q.release n) :=
  { h with loaded := congrArg (·.erase n) h.loaded }

/-- If one pass has no class to take, the other has none. -/
theorem pop?_eq_none (h : Same p q) (hp : p.pop? = none) : q.pop? = none := by
  unfold Pass.pop? at hp ⊢
  rw [h.pending] at hp
  cases hq : q.pending.pop? with
  | none => rfl
  | some x => simp [hq] at hp

/-- If one pass takes a class, the other takes the same one. -/
theorem exists_pop?_eq_some {p' : Pass source} {n : ClassName} (h : Same p q)
    (hp : p.pop? = some (n, p')) : ∃ q', q.pop? = some (n, q') ∧ Same p' q' := by
  unfold Pass.pop? at hp ⊢
  rw [h.pending] at hp
  cases hq : q.pending.pop? with
  | none => simp [hq] at hp
  | some x =>
    simp only [hq, Option.some.injEq, Prod.mk.injEq] at hp
    obtain ⟨rfl, rfl⟩ := hp
    exact ⟨_, rfl, { h with pending := rfl, queued := congrArg (·.erase x.1) h.queued }⟩

end Same

/-- Passes start at the same point. -/
theorem same_start (source other : ClassSource) : Same (start source) (start other) :=
  ⟨rfl, rfl, rfl, rfl, rfl, rfl, rfl⟩

/-! ### Sources that agree -/

namespace Same

variable {p p' : Pass source} {q : Pass other} {n : ClassName}

/-- What the source does not give out, a source that agrees does not give out either. -/
theorem lookUp_eq_error (h : Same p q) {failure : Failure} (hl : p.lookUp n = .error failure)
    (ha : source.AgreesOn other failure.asked) : q.lookUp n = .error failure := by
  have hloaded : q.loaded[n]? = p.loaded[n]? := by rw [h.loaded]
  have hmissing : q.missing.contains n = p.missing.contains n := by rw [h.missing]
  generalize hy : q.lookUp n = y
  cases lookedUp_of_eq hl with
  | failed hp hpm hf hc =>
    -- What failed was asked for, so the other source answers with the same fault.
    have hf' := (ha n (List.mem_cons_self ..)).trans hf
    cases lookedUp_of_eq hy with
    | kept | known | found => simp_all
    | notFound hq hqm hg => exact absurd (Except.error.inj (hf'.symm.trans hg)) (hc _)
    | failed hq hqm hg =>
      obtain rfl := Except.error.inj (hf'.symm.trans hg)
      rw [h.asked]

/-- What the source is known or found not to have, a source that agrees does not have either. -/
theorem exists_lookUp_eq_none (h : Same p q) (hl : p.lookUp n = .ok (p', none))
    (ha : source.AgreesOn other p'.asked) :
    ∃ q', q.lookUp n = .ok (q', none) ∧ Same p' q' := by
  have hloaded : q.loaded[n]? = p.loaded[n]? := by rw [h.loaded]
  have hmissing : q.missing.contains n = p.missing.contains n := by rw [h.missing]
  generalize hy : q.lookUp n = y
  cases lookedUp_of_eq hl with
  | known hp hpm =>
    cases lookedUp_of_eq hy with
    | known => exact ⟨q, rfl, h⟩
    | kept | found | notFound | failed => simp_all
  -- The name was asked for, so the other source denies it as well, be it with another name in the
  -- fault.
  | notFound hp hpm hf =>
    have hf' := (ha n (List.mem_cons_self ..)).trans hf
    cases lookedUp_of_eq hy with
    | notFound =>
      exact ⟨_, rfl, { h with
        missing := congrArg (·.insert n) h.missing
        asked := congrArg (n :: ·) h.asked }⟩
    | kept | known | found | failed => simp_all

/-- What was kept or is found is kept or found by both. -/
theorem exists_lookUp_eq_some (h : Same p q) {c : ClassFile} {hc : source.find n = .ok c}
    (hl : p.lookUp n = .ok (p', some ⟨c, hc⟩)) (ha : source.AgreesOn other p'.asked) :
    ∃ q' hc', q.lookUp n = .ok (q', some ⟨c, hc'⟩) ∧ Same p' q' := by
  have hloaded : q.loaded[n]? = p.loaded[n]? := by rw [h.loaded]
  have hmissing : q.missing.contains n = p.missing.contains n := by rw [h.missing]
  generalize hy : q.lookUp n = y
  cases lookedUp_of_eq hl with
  | kept hp =>
    cases lookedUp_of_eq hy with
    | kept hq =>
      obtain rfl := Option.some.inj (hp.symm.trans (hloaded.symm.trans hq))
      exact ⟨_, _, rfl, h.release n⟩
    | known | found | notFound | failed => simp_all
  | found hp hpm hf =>
    have hf' := (ha n (List.mem_cons_self ..)).trans hf
    cases lookedUp_of_eq hy with
    | found hq hqm hg =>
      obtain rfl := Except.ok.inj (hf'.symm.trans hg)
      exact ⟨_, _, rfl, { h with asked := congrArg (n :: ·) h.asked }⟩
    | kept | known | notFound | failed => simp_all

end Same

/-- Sources that agree on what an ascent asks for lead it to the same outcome. -/
theorem alike_ascend {p : Pass source} {q : Pass other} (h : Same p q)
    {visited : Std.HashSet ClassName} {stack : List (Visit source)} {stack' : List (Visit other)}
    (hs : List.Forall₂ Visit.Same stack stack')
    (ha : source.AgreesOn other (askedBy (p.ascend visited stack))) :
    Alike (p.ascend visited stack) (q.ascend visited stack') := by
  -- The induction is along the turns of the first ascent, and the second one takes the same.
  fun_induction ascend p visited stack generalizing q stack' with
  | case1 p =>
    cases hs
    rw [ascend]
    exact .ok h
  | case2 p visited n c hc rest ih =>
    obtain ⟨_, rest', hv, hrest, rfl⟩ := List.forall₂_cons_left_iff.1 hs
    cases hv with
    | leave _ _ _ hc' =>
      rw [ascend]
      exact ih (h.keep hc hc') hrest ha
  | case3 p visited n rest hn ih =>
    obtain ⟨_, rest', ⟨⟩, hrest, rfl⟩ := List.forall₂_cons_left_iff.1 hs
    rw [ascend, ← h.isResolved, if_pos hn]
    exact ih h hrest ha
  | case4 p visited n rest hn failure hl =>
    obtain ⟨_, rest', ⟨⟩, hrest, rfl⟩ := List.forall₂_cons_left_iff.1 hs
    rw [ascend, ← h.isResolved, if_neg hn, h.lookUp_eq_error hl ha]
    exact .error failure
  | case5 p visited n rest hn p' hl ih =>
    obtain ⟨_, rest', ⟨⟩, hrest, rfl⟩ := List.forall₂_cons_left_iff.1 hs
    obtain ⟨q', hl', h'⟩ := h.exists_lookUp_eq_none hl (ha.mono (asked_subset_ascend ..))
    rw [ascend, ← h.isResolved, if_neg hn, hl']
    exact ih h' hrest ha
  | case6 p visited n rest hn p' c hc hl ih =>
    obtain ⟨_, rest', ⟨⟩, hrest, rfl⟩ := List.forall₂_cons_left_iff.1 hs
    -- What was asked for until here is on record when the ascent is over.
    have hsub : p'.asked ⊆ (p'.promote n).asked := by
      rw [asked_promote]
      exact List.Subset.refl _
    obtain ⟨q', hc', hl', h'⟩ := h.exists_lookUp_eq_some hl
      (ha.mono (List.Subset.trans hsub (asked_subset_ascend ..)))
    rw [ascend, ← h.isResolved, if_neg hn, hl']
    refine ih (h'.promote n) ?_ ha
    exact List.rel_append (Visit.same_map_enter _) (.cons (.leave n c hc hc') hrest)

/-- Sources that agree on what settling a class asks for lead to the same outcome. -/
theorem alike_settle {p : Pass source} {q : Pass other} (h : Same p q) (n : ClassName)
    (c : ClassFile) (ha : source.AgreesOn other (askedBy (p.settle n c))) :
    Alike (p.settle n c) (q.settle n c) := by
  -- The references of a class are in its file, for which nobody is asked again.
  rw [askedBy_settle] at ha
  have hup := alike_ascend (h.resolve n) (Visit.same_map_enter c.ancestors) ha
  unfold settle
  generalize (p.resolve n).ascend ∅ (c.ancestors.map .enter) = x at hup
  generalize (q.resolve n).ascend ∅ (c.ancestors.map .enter) = y at hup
  cases hup with
  | error failure => exact .error failure
  | ok h' =>
    cases hr : c.referenced with
    | ok ns => exact .ok (h'.foldl_enqueue ns)
    | error fault =>
      simp only [h'.asked]
      exact .error _

/-- The run without the evidence that it hands on. -/
theorem run_eq (p : Pass source) (roots : Std.HashSet ClassName) :
    p.run roots = match p.pop? with
      | none => .ok p
      | some (n, q) =>
        if q.isResolved n then q.run roots
        else match q.lookUp n with
          | .error failure => .error failure
          | .ok (r, none) =>
            if roots.contains n then .error ⟨.missingRoot n, r.asked⟩ else r.run roots
          | .ok (r, some found) => r.settle n found.1 >>= run roots := by
  -- The definition keeps proofs for its termination, which are dropped here.
  rw [run]
  split
  · rename_i hp
    rw [hp]
  · rename_i n q hp
    rw [hp]
    by_cases hr : q.isResolved n = true
    · simp only [hr, if_true, dif_pos]
    · simp only [hr, if_false, dif_neg, not_false_eq_true, Bool.false_eq_true]
      split
      · rename_i failure hl
        rw [hl]
      · rename_i r hl
        rw [hl]
      · rename_i r c hc hl
        rw [hl]
        show _ = r.settle n c >>= run roots
        split <;> rename_i hs <;> rw [hs] <;> rfl

/-- **A source that agrees on what is asked for leads to the same outcome.** -/
theorem alike_run {p : Pass source} {q : Pass other} {roots : Std.HashSet ClassName}
    (h : Same p q) (ha : source.AgreesOn other (askedBy (p.run roots))) :
    Alike (p.run roots) (q.run roots) := by
  fun_induction run roots p generalizing q with
  | case1 p hp =>
    rw [run_eq q, h.pop?_eq_none hp]
    exact .ok h
  | case2 p n p' hp hr ih =>
    obtain ⟨q', hq, h'⟩ := h.exists_pop?_eq_some hp
    rw [run_eq q, hq]
    simp only [← h'.isResolved, hr, if_true]
    exact ih h' ha
  | case3 p n p' hp hr failure hl =>
    obtain ⟨q', hq, h'⟩ := h.exists_pop?_eq_some hp
    rw [run_eq q, hq]
    simp only [← h'.isResolved, if_neg hr, h'.lookUp_eq_error hl ha]
    exact .error failure
  | case4 p n p' hp hr r hl hroot =>
    obtain ⟨q', hq, h'⟩ := h.exists_pop?_eq_some hp
    obtain ⟨t, hl', hrt⟩ := h'.exists_lookUp_eq_none hl ha
    rw [run_eq q, hq]
    simp only [← h'.isResolved, if_neg hr, hl', if_pos hroot, ← hrt.asked]
    exact .error _
  | case5 p n p' hp hr r hl hroot ih =>
    obtain ⟨q', hq, h'⟩ := h.exists_pop?_eq_some hp
    obtain ⟨t, hl', hrt⟩ := h'.exists_lookUp_eq_none hl (ha.mono (asked_subset_run ..))
    rw [run_eq q, hq]
    simp only [← h'.isResolved, if_neg hr, hl', if_neg hroot]
    exact ih hrt ha
  | case6 p n p' hp hr r c hc hl failure hs =>
    obtain ⟨q', hq, h'⟩ := h.exists_pop?_eq_some hp
    have hsub : r.asked ⊆ failure.asked := by
      have hset := asked_subset_settle r n c
      rwa [hs] at hset
    obtain ⟨t, hc', hl', hrt⟩ := h'.exists_lookUp_eq_some hl (ha.mono hsub)
    have hset := alike_settle hrt n c (by rwa [hs])
    rw [hs] at hset
    rw [run_eq q, hq]
    simp only [← h'.isResolved, if_neg hr, hl', hset.eq_error]
    exact .error failure
  | case7 p n p' hp hr r c hc hl s hs ih =>
    obtain ⟨q', hq, h'⟩ := h.exists_pop?_eq_some hp
    have hsub : r.asked ⊆ s.asked := by
      have hset := asked_subset_settle r n c
      rwa [hs] at hset
    -- The rest of the run asks for more, so the sources agree on what was asked for until here.
    have has : source.AgreesOn other s.asked := ha.mono (asked_subset_run s roots)
    obtain ⟨t, hc', hl', hrt⟩ := h'.exists_lookUp_eq_some hl (has.mono hsub)
    have hset := alike_settle hrt n c (by rwa [hs])
    rw [hs] at hset
    obtain ⟨u, hu, hsu⟩ := hset.exists_eq_ok
    rw [run_eq q, hq]
    simp only [← h'.isResolved, if_neg hr, hl', hu]
    exact ih hsu ha

end Pass

namespace ClassSource

variable {source other : ClassSource} {roots : List ClassName}

/-- **What is not asked for does not matter.** A source that agrees with another one on the names
    that the pass asks for has the same closure or the same fault. -/
theorem closure_eq_of_agreesOn (h : source.AgreesOn other (source.asked roots)) :
    other.closure roots = source.closure roots := by
  have hstart := (Pass.same_start source other).foldl_enqueue roots
  have halike : Pass.Alike (source.pass roots) (other.pass roots) := Pass.alike_run hstart h
  unfold closure
  cases hp : source.pass roots with
  | error failure =>
    rw [hp] at halike
    rw [halike.eq_error]
  | ok p =>
    rw [hp] at halike
    obtain ⟨q, hq, hpq⟩ := halike.exists_eq_ok
    simp only [hq, hpq.resolved]

end ClassSource

end PrimaryDex
