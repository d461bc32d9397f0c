import PrimaryDex.Closure.Basic
import PrimaryDex.Proofs.Closure.Stage

namespace PrimaryDex

/-!
# The records of a pass

A pass keeps sets beside its lists, the classes that it found and the names that it missed.
`Pass.Coherent` says that they tell the truth. So long as they do, a pass goes through the stages of
`Stage.Step` and nothing else:

* `Pass.stage` — the lists of a pass;
* `Pass.lookUp_spec`, `Pass.ascend_spec`, `Pass.settle_spec`, `Pass.run_spec` — what each operation
  does to the lists, and that the records stay coherent;
* `ClassSource.closure_eq_ok_iff`, `ClassSource.exists_fails_of_closure` — the closure of some roots
  is where the steps from `Stage.start` end.
-/

namespace Pass

variable {source : ClassSource}

/-- Where a pass stands. -/
def stage (p : Pass source) : Stage := ⟨p.resolved.toList, p.pending.toList⟩

/-- The records of a pass agree with its lists and with the source. -/
structure Coherent (p : Pass source) : Prop where
  tidy : p.stage.Tidy
  isResolved_iff : ∀ n, p.isResolved n = true ↔ n ∈ p.stage.resolved
  queued_iff : ∀ n, p.queued.contains n = true ↔ n ∈ p.stage.pending
  lacks_of_missing : ∀ n, p.missing.contains n = true → source.Lacks n

/-- Empty records tell the truth. -/
theorem coherent_start : (start source).Coherent where
  tidy := ⟨List.nodup_nil, List.nodup_nil, by simp [start, stage]⟩
  isResolved_iff := by simp [start, stage, isResolved]
  queued_iff := by simp [start, stage]
  lacks_of_missing := by simp [start]

/-! ### Operations on the lists -/

/-- Enqueuing in a pass is enqueuing in its stage. -/
theorem stage_enqueue {p : Pass source} (hp : p.Coherent) (n : ClassName) :
    (p.enqueue n).stage = p.stage.enqueue n := by
  simp only [enqueue, Stage.enqueue, Bool.or_eq_true, hp.isResolved_iff, hp.queued_iff]
  split
  · rfl
  · simp [stage]

/-- Enqueuing keeps the records coherent. -/
theorem coherent_enqueue {p : Pass source} (hp : p.Coherent) (n : ClassName) :
    (p.enqueue n).Coherent := by
  refine ⟨stage_enqueue hp n ▸ hp.tidy.enqueue n, fun m => ?_, fun m => ?_, ?_⟩
  · rw [isResolved_enqueue, stage_enqueue hp, Stage.resolved_enqueue, hp.isResolved_iff]
  · -- The set gains what the list gains.
    rw [stage_enqueue hp, Stage.pending_enqueue]
    simp only [enqueue, Bool.or_eq_true, hp.isResolved_iff, hp.queued_iff]
    split
    · rw [List.append_nil, hp.queued_iff]
    · rw [Std.HashSet.contains_insert, Bool.or_eq_true, hp.queued_iff, beq_iff_eq, List.mem_append,
        List.mem_singleton, or_comm, eq_comm]
  · unfold enqueue
    split <;> exact hp.lacks_of_missing

theorem foldl_enqueue_spec {p : Pass source} (hp : p.Coherent) (ns : List ClassName) :
    (ns.foldl enqueue p).stage = ns.foldl Stage.enqueue p.stage
      ∧ (ns.foldl enqueue p).Coherent := by
  induction ns generalizing p with
  | nil => exact ⟨rfl, hp⟩
  | cons n ns ih =>
    rw [List.foldl_cons, List.foldl_cons, ← stage_enqueue hp]
    exact ih (coherent_enqueue hp n)

/-- Promoting in a pass is promoting in its stage. -/
theorem stage_promote {p : Pass source} (hp : p.Coherent) (n : ClassName) :
    (p.promote n).stage = p.stage.promote [n] := by
  -- A pass takes out the first occurrence only, which is every one, since nothing is listed twice.
  have hd : ∀ xs : List ClassName, xs.Nodup → xs.erase n = xs.filter (· ∉ [n]) := by
    intro xs hx
    rw [hx.erase_eq_filter]
    exact List.filter_congr fun m _ => by by_cases hm : m = n <;> simp [hm]
  have h : (p.promote n).pending.toList = (p.stage.promote [n]).pending := by
    rw [pending_promote, Stage.promote, List.reverse_singleton, List.singleton_append,
      ← hd _ hp.tidy.nodup_pending]
    split
    · rfl
    · rename_i hn
      rw [hp.queued_iff] at hn
      rw [List.erase_of_not_mem hn]
      rfl
  have hr : (p.promote n).resolved = p.resolved := by
    unfold promote
    split <;> rfl
  simp only [stage, hr, h]
  rfl

/-- Promoting a class that is not resolved keeps the records coherent. -/
theorem coherent_promote {p : Pass source} (hp : p.Coherent) {n : ClassName}
    (hn : p.isResolved n = false) : (p.promote n).Coherent := by
  have hn' : n ∉ p.stage.resolved := by simp [← hp.isResolved_iff, hn]
  refine ⟨stage_promote hp n ▸ hp.tidy.promote (List.nodup_singleton n) (by simpa using hn'),
    fun m => ?_, fun m => ?_, ?_⟩
  · rw [isResolved_promote, stage_promote hp, Stage.resolved_promote, hp.isResolved_iff]
  · rw [stage_promote hp, Stage.mem_promote, ← hp.queued_iff m]
    unfold promote
    split
    · -- A class that was queued is in the set already.
      rename_i hq
      rw [List.mem_singleton, iff_or_self]
      rintro rfl
      exact hq
    · rw [Std.HashSet.contains_insert, Bool.or_eq_true, beq_iff_eq, List.mem_singleton, eq_comm]
  · unfold promote
    split <;> exact hp.lacks_of_missing

/-- Resolving a class puts it behind the resolved ones. -/
theorem stage_resolve {p : Pass source} {n : ClassName} (hn : p.isResolved n = false) :
    (p.resolve n).stage = ⟨p.stage.resolved ++ [n], p.stage.pending⟩ := by
  simp [resolve, hn, stage]

/-- Resolving a class that was just taken keeps the records coherent. -/
theorem coherent_resolve {p : Pass source} (hp : p.Coherent) {n : ClassName}
    (hn : p.isResolved n = false) (hq : n ∉ p.stage.pending) : (p.resolve n).Coherent := by
  have hs := stage_resolve hn
  refine ⟨?_, fun m => ?_, fun m => ?_, ?_⟩
  · rw [hs]
    refine Stage.Tidy.resolve ⟨hp.tidy.nodup_resolved, ?_, ?_⟩
    · exact List.nodup_cons.2 ⟨hq, hp.tidy.nodup_pending⟩
    · rintro m (_ | ⟨_, hm⟩)
      · simp [← hp.isResolved_iff, hn]
      · exact hp.tidy.not_resolved m hm
  · rw [isResolved_resolve, hs]
    simp [hp.isResolved_iff]
  · rw [hs]
    simpa [resolve, hn] using hp.queued_iff m
  · simpa [resolve, hn] using hp.lacks_of_missing

/-- A pass has no class to take only if none is pending. -/
theorem stage_of_pop?_eq_none {p : Pass source} (h : p.pop? = none) : p.stage.pending = [] := by
  unfold pop? at h
  split at h
  · rename_i hq
    exact Queue.pop?_eq_none_iff.1 hq
  · simp at h

/-- Taking the first pending class leaves the records coherent. It is not resolved, and no longer
    pending. -/
theorem pop?_spec {p q : Pass source} {n : ClassName} (hp : p.Coherent)
    (h : p.pop? = some (n, q)) :
    p.stage = ⟨q.stage.resolved, n :: q.stage.pending⟩ ∧ q.Coherent ∧ q.isResolved n = false
      ∧ n ∉ q.stage.pending := by
  have hpend := pending_of_pop? h
  have hres := isResolved_of_pop? h
  unfold pop? at h
  split at h
  · simp at h
  rename_i m pending hq
  simp only [Option.some.injEq, Prod.mk.injEq] at h
  obtain ⟨rfl, rfl⟩ := h
  have hs : p.stage = ⟨p.stage.resolved, m :: pending.toList⟩ := by
    simp only [stage, hpend]
  have ht := hp.tidy
  rw [hs] at ht
  have hnd := List.nodup_cons.1 ht.nodup_pending
  refine ⟨hs, ⟨⟨ht.nodup_resolved, hnd.2, ?_⟩, hp.isResolved_iff, fun k => ?_, hp.lacks_of_missing⟩,
    ?_, hnd.1⟩
  · exact fun k hk => ht.not_resolved k (List.mem_cons_of_mem _ hk)
  · -- The class leaves both the list and the set, where it stood once.
    have hk := hp.queued_iff k
    rw [hs] at hk
    by_cases hkm : k = m
    · subst hkm
      simpa [stage] using hnd.1
    · simpa [stage, hkm, Ne.symm hkm] using hk
  · rw [hres, ← Bool.not_eq_true, hp.isResolved_iff]
    exact ht.not_resolved m (List.mem_cons_self ..)

/-! ### Found and missing classes -/

/-- Keeping a class makes no difference to what the records say. -/
theorem coherent_keep {p : Pass source} (hp : p.Coherent) (n : ClassName) (c : ClassFile)
    (hc : source.find n = .ok c) : (p.keep n c hc).Coherent :=
  ⟨hp.tidy, hp.isResolved_iff, hp.queued_iff, hp.lacks_of_missing⟩

/-- Taking it out again makes none either. -/
theorem coherent_release {p : Pass source} (hp : p.Coherent) (n : ClassName) :
    (p.release n).Coherent :=
  ⟨hp.tidy, hp.isResolved_iff, hp.queued_iff, hp.lacks_of_missing⟩

/-- Looking a class up leaves the lists alone. What is not found is not there. -/
theorem lookUp_spec {p q : Pass source} {n : ClassName} {found : Option (Found source n)}
    (hp : p.Coherent) (h : p.lookUp n = .ok (q, found)) :
    q.stage = p.stage ∧ q.Coherent ∧ (found = none → source.Lacks n) := by
  cases lookedUp_of_eq h with
  | kept => exact ⟨rfl, coherent_release hp n, by simp⟩
  | known _ hm => exact ⟨rfl, hp, fun _ => hp.lacks_of_missing n hm⟩
  | found =>
    exact ⟨rfl, ⟨hp.tidy, hp.isResolved_iff, hp.queued_iff, hp.lacks_of_missing⟩, by simp⟩
  -- What is recorded as missing now is what the source has just denied.
  | @notFound _ _ m hf =>
    refine ⟨rfl, ⟨hp.tidy, hp.isResolved_iff, hp.queued_iff, fun k hk => ?_⟩, fun _ => ⟨m, hf⟩⟩
    rcases Std.HashSet.mem_insert.1 hk with hk | hk
    · exact eq_of_beq hk ▸ ⟨m, hf⟩
    · exact hp.lacks_of_missing k hk

/-- A look-up that fails does so with the fault of the source, which is not that there is no such
    class. -/
theorem lookUp_eq_error {p : Pass source} {n : ClassName} {failure : Failure}
    (h : p.lookUp n = .error failure) :
    source.find n = .error failure.fault ∧ ∀ m, failure.fault ≠ .classNotFound m := by
  cases lookedUp_of_eq h with
  | failed _ _ hf hc => exact ⟨hf, hc⟩

/-! ### The ascent -/

/-- The barred classes of an ascent, one more visited. -/
theorem isResolved_or_contains_insert (p : Pass source) (visited : Std.HashSet ClassName)
    (n m : ClassName) : (p.isResolved m || (visited.insert n).contains m)
      = (p.isResolved m || visited.contains m || m == n) := by
  rw [Std.HashSet.contains_insert, Bool.or_comm (n == m), Bool.or_assoc, BEq.comm]

/-- A class that an ascent enters is not resolved, and looking it up does not change that. -/
theorem isResolved_eq_false_of_enter {p q : Pass source} {visited : Std.HashSet ClassName}
    {n : ClassName} {found : Option (Found source n)}
    (hn : ¬ (p.isResolved n || visited.contains n) = true) (hl : p.lookUp n = .ok (q, found)) :
    q.isResolved n = false := by
  rw [Bool.not_eq_true, Bool.or_eq_false_iff] at hn
  rw [isResolved_of_lookUp hl, hn.1]

/-- An ascent promotes the lineage of what its stack enters, outside the resolved and the visited
    classes. -/
theorem ascend_spec {p q : Pass source} {visited : Std.HashSet ClassName}
    {stack : List (Visit source)} (hp : p.Coherent) (h : p.ascend visited stack = .ok q) :
    ∃ ns, source.lineage (fun m => p.isResolved m || visited.contains m) (toEnter stack) = .ok ns
      ∧ q.stage = p.stage.promote ns ∧ q.Coherent := by
  fun_induction ascend p visited stack with
  | case1 p =>
    rw [Except.ok.injEq] at h
    subst h
    exact ⟨[], ClassSource.lineage_nil _, (Stage.promote_nil _).symm, hp⟩
  | case2 p visited n c hc rest ih => exact ih (coherent_keep hp n c hc) h
  | case3 p visited n rest hn ih =>
    rw [toEnter_enter, ClassSource.lineage_cons_of_barred hn]
    exact ih hp h
  | case4 => simp at h
  | case5 p visited n rest hn q' hl ih =>
    -- A missing ancestor is visited, and nothing else comes of it.
    obtain ⟨hs, hq, hm⟩ := lookUp_spec hp hl
    obtain ⟨ns, hns, hst, hc⟩ := ih hq h
    simp only [isResolved_or_contains_insert, isResolved_of_lookUp hl] at hns
    rw [toEnter_enter, ClassSource.lineage_cons_of_lacks (by simpa using hn) (hm rfl)]
    exact ⟨ns, hns, hs ▸ hst, hc⟩
  | case6 p visited n rest hn q' c hc hl ih =>
    obtain ⟨hs, hq, -⟩ := lookUp_spec hp hl
    have hr := isResolved_eq_false_of_enter hn hl
    -- The ancestor itself is promoted, then the lineage above it.
    obtain ⟨ns, hns, hst, hc'⟩ := ih (coherent_promote hq hr) h
    simp only [isResolved_or_contains_insert, isResolved_promote, isResolved_of_lookUp hl,
      toEnter_map_append, toEnter_leave] at hns
    have hn' : n ∉ ns := fun hm => by
      simpa using (ClassSource.free_of_mem_lineage hns n hm).2
    rw [toEnter_enter, ClassSource.lineage_cons_of_find (by simpa using hn) hc, hns]
    refine ⟨n :: ns, rfl, ?_, hc'⟩
    calc q.stage = (q'.promote n).stage.promote ns := hst
      _ = (p.stage.promote [n]).promote ns := by rw [stage_promote hq, hs]
      _ = p.stage.promote (n :: ns) := Stage.promote_promote _ hn'

/-- An ascent fails as the walk over the lineage does. -/
theorem ascend_eq_error {p : Pass source} {visited : Std.HashSet ClassName}
    {stack : List (Visit source)} {failure : Failure} (hp : p.Coherent)
    (h : p.ascend visited stack = .error failure) :
    source.lineage (fun m => p.isResolved m || visited.contains m) (toEnter stack)
      = .error failure.fault := by
  fun_induction ascend p visited stack with
  | case1 => simp at h
  | case2 p visited n c hc rest ih => exact ih (coherent_keep hp n c hc) h
  | case3 p visited n rest hn ih =>
    rw [toEnter_enter, ClassSource.lineage_cons_of_barred hn]
    exact ih hp h
  | case4 p visited n rest hn f hl =>
    rw [Except.error.injEq] at h
    subst h
    obtain ⟨hf, hm⟩ := lookUp_eq_error hl
    exact ClassSource.lineage_cons_of_error (by simpa using hn) hf hm
  | case5 p visited n rest hn q' hl ih =>
    obtain ⟨hs, hq, hm⟩ := lookUp_spec hp hl
    have hns := ih hq h
    simp only [isResolved_or_contains_insert, isResolved_of_lookUp hl] at hns
    rw [toEnter_enter, ClassSource.lineage_cons_of_lacks (by simpa using hn) (hm rfl), hns]
  -- The fault comes from above `n`, where the walk goes on behind it.
  | case6 p visited n rest hn q' c hc hl ih =>
    obtain ⟨-, hq, -⟩ := lookUp_spec hp hl
    have hr := isResolved_eq_false_of_enter hn hl
    have hns := ih (coherent_promote hq hr) h
    simp only [isResolved_or_contains_insert, isResolved_promote, isResolved_of_lookUp hl,
      toEnter_map_append, toEnter_leave] at hns
    rw [toEnter_enter, ClassSource.lineage_cons_of_find (by simpa using hn) hc, hns]
    rfl

/-! ### Settling a class -/

/-- The ascent of a settling, which starts with nothing visited. -/
theorem barred_resolve {p : Pass source} (hp : p.Coherent) {n : ClassName} :
    (fun m => (p.resolve n).isResolved m || (∅ : Std.HashSet ClassName).contains m)
      = (p.stage.resolved ++ [n]).contains := by
  funext m
  rw [Std.HashSet.contains_empty, Bool.or_false, isResolved_resolve, Bool.eq_iff_iff]
  simp [hp.isResolved_iff]

/-- Settling a class in a pass is settling it in its stage, with its lineage outside the resolved
    classes. -/
theorem settle_spec {p q : Pass source} {n : ClassName} {c : ClassFile} (hp : p.Coherent)
    (hn : p.isResolved n = false) (hq : n ∉ p.stage.pending) (h : p.settle n c = .ok q) :
    ∃ lineage referenced,
      source.lineage (p.stage.resolved ++ [n]).contains c.ancestors = .ok lineage
      ∧ c.referenced = .ok referenced
      ∧ q.stage = p.stage.settle n lineage referenced ∧ q.Coherent := by
  have hres := coherent_resolve hp hn hq
  unfold settle at h
  split at h
  · simp at h
  · rename_i r hr
    -- The ascent works on the pass with `n` resolved already.
    obtain ⟨lineage, hl, hs, hc⟩ := ascend_spec hres hr
    rw [toEnter_map, barred_resolve hp] at hl
    split at h
    · rename_i ns hns
      rw [Except.ok.injEq] at h
      obtain ⟨hs', hc'⟩ := foldl_enqueue_spec hc ns
      refine ⟨lineage, ns, hl, hns, ?_, h ▸ hc'⟩
      rw [← h, hs', hs, stage_resolve hn]
      rfl
    · simp at h

/-- Settling a class fails over its lineage, or else over its references. -/
theorem settle_eq_error {p : Pass source} {n : ClassName} {c : ClassFile} {failure : Failure}
    (hp : p.Coherent) (hn : p.isResolved n = false) (hq : n ∉ p.stage.pending)
    (h : p.settle n c = .error failure) :
    source.lineage (p.stage.resolved ++ [n]).contains c.ancestors = .error failure.fault
      ∨ ∃ lineage, source.lineage (p.stage.resolved ++ [n]).contains c.ancestors = .ok lineage
        ∧ c.referenced = .error failure.fault := by
  have hres := coherent_resolve hp hn hq
  -- First the ascent can fail, and then the references can.
  unfold settle at h
  split at h
  · rename_i f hf
    rw [Except.error.injEq] at h
    subst h
    have hl := ascend_eq_error hres hf
    rw [toEnter_map, barred_resolve hp] at hl
    exact .inl hl
  · rename_i r hr
    obtain ⟨lineage, hl, -, -⟩ := ascend_spec hres hr
    rw [toEnter_map, barred_resolve hp] at hl
    split at h
    · simp at h
    · rename_i fault hf
      rw [Except.error.injEq] at h
      exact .inr ⟨lineage, hl, h ▸ hf⟩

/-! ### The whole run -/

/-- Passing over a class that is not there is a step. -/
theorem step_of_lookUp_eq_none {roots : List ClassName} {p q r : Pass source} {n : ClassName}
    (hp : p.Coherent) (hpop : p.pop? = some (n, q)) (hl : q.lookUp n = .ok (r, none))
    (hn : n ∉ roots) : p.stage.Step source roots r.stage ∧ r.Coherent := by
  obtain ⟨hs, hq, -, -⟩ := pop?_spec hp hpop
  obtain ⟨hs', hr, hm⟩ := lookUp_spec hq hl
  refine ⟨?_, hr⟩
  rw [hs, hs']
  exact .drop (hm rfl) hn

/-- Settling a class that is there is a step. -/
theorem step_of_settle (roots : List ClassName) {p q r t : Pass source} {n : ClassName}
    {found : Found source n} (hp : p.Coherent) (hpop : p.pop? = some (n, q))
    (hl : q.lookUp n = .ok (r, some found)) (hset : r.settle n found = .ok t) :
    p.stage.Step source roots t.stage ∧ t.Coherent := by
  obtain ⟨hs, hq, hn, hnp⟩ := pop?_spec hp hpop
  obtain ⟨hs', hr, -⟩ := lookUp_spec hq hl
  obtain ⟨lineage, referenced, hlin, href, hst, ht⟩ :=
    settle_spec hr (isResolved_of_lookUp hl n ▸ hn) (hs' ▸ hnp) hset
  refine ⟨?_, ht⟩
  rw [hst, hs, ← hs']
  exact .settle found.2 hlin href

/-- A fault while a class is settled is one of the stage. -/
theorem fails_of_settle {roots : List ClassName} {p q r : Pass source} {n : ClassName}
    {found : Found source n} {failure : Failure} (hp : p.Coherent) (hpop : p.pop? = some (n, q))
    (hl : q.lookUp n = .ok (r, some found)) (hset : r.settle n found = .error failure) :
    p.stage.Fails source roots failure.fault := by
  obtain ⟨hs, hq, hn, hnp⟩ := pop?_spec hp hpop
  obtain ⟨hs', hr, -⟩ := lookUp_spec hq hl
  rw [hs, ← hs']
  rcases settle_eq_error hr (isResolved_of_lookUp hl n ▸ hn) (hs' ▸ hnp) hset with
    hlin | ⟨lineage, hlin, href⟩
  · exact .lineage found.2 hlin
  · exact .referenced found.2 hlin href

/-- A run that ends well goes through steps until nothing is pending. -/
theorem run_spec {roots : List ClassName} {p q : Pass source} (hp : p.Coherent)
    (h : p.run (.ofList roots) = .ok q) :
    Stage.Steps source roots p.stage q.stage ∧ q.stage.pending = [] ∧ q.Coherent := by
  fun_induction run (.ofList roots) p with
  | case1 p hpop =>
    rw [Except.ok.injEq] at h
    exact h ▸ ⟨.refl, stage_of_pop?_eq_none hpop, hp⟩
  | case2 p n p' hpop hr ih =>
    -- A pending class is never resolved.
    obtain ⟨-, -, hr', -⟩ := pop?_spec hp hpop
    simp [hr'] at hr
  | case3 => simp at h
  | case4 => simp at h
  -- One step, then the steps of the rest.
  | case5 p n p' hpop hr p'' hl hroot ih =>
    obtain ⟨hstep, hp''⟩ := step_of_lookUp_eq_none hp hpop hl (by simpa using hroot)
    exact (ih hp'' h).imp_left (.head hstep)
  | case6 => simp at h
  | case7 p n p' hpop hr p'' c hc hl q' hset ih =>
    obtain ⟨hstep, hq'⟩ := step_of_settle roots hp hpop hl hset
    exact (ih hq' h).imp_left (.head hstep)

/-- A run that ends with a fault goes through steps until a stage fails with it. -/
theorem run_eq_error {roots : List ClassName} {p : Pass source} {failure : Failure}
    (hp : p.Coherent) (h : p.run (.ofList roots) = .error failure) :
    ∃ s, Stage.Steps source roots p.stage s ∧ s.Fails source roots failure.fault := by
  fun_induction run (.ofList roots) p with
  | case1 => simp at h
  | case2 p n p' hpop hr ih =>
    obtain ⟨-, -, hr', -⟩ := pop?_spec hp hpop
    simp [hr'] at hr
  -- The stage at hand fails in cases 3, 4 and 6, and a later one in cases 5 and 7.
  | case3 p n p' hpop hr f hl =>
    rw [Except.error.injEq] at h
    subst h
    obtain ⟨hs, -, -, -⟩ := pop?_spec hp hpop
    obtain ⟨hf, hm⟩ := lookUp_eq_error hl
    exact ⟨_, .refl, hs ▸ .found hf hm⟩
  | case4 p n p' hpop hr p'' hl hroot =>
    rw [Except.error.injEq] at h
    subst h
    obtain ⟨hs, hc, -, -⟩ := pop?_spec hp hpop
    obtain ⟨-, -, hm⟩ := lookUp_spec hc hl
    exact ⟨_, .refl, hs ▸ .missingRoot (hm rfl) (by simpa using hroot)⟩
  | case5 p n p' hpop hr p'' hl hroot ih =>
    obtain ⟨hstep, hp''⟩ := step_of_lookUp_eq_none hp hpop hl (by simpa using hroot)
    obtain ⟨s, hs, hf⟩ := ih hp'' h
    exact ⟨s, .head hstep hs, hf⟩
  | case6 p n p' hpop hr p'' c hc hl f hset =>
    rw [Except.error.injEq] at h
    subst h
    exact ⟨_, .refl, fails_of_settle hp hpop hl hset⟩
  | case7 p n p' hpop hr p'' c hc hl q' hset ih =>
    obtain ⟨hstep, hq'⟩ := step_of_settle roots hp hpop hl hset
    obtain ⟨s, hs, hf⟩ := ih hq' h
    exact ⟨s, .head hstep hs, hf⟩

end Pass

namespace ClassSource

variable {source : ClassSource} {roots : List ClassName}

/-- The pass starts at the start, with coherent records. -/
theorem stage_start (source : ClassSource) (roots : List ClassName) :
    (roots.foldl Pass.enqueue (Pass.start source)).stage = Stage.start roots
      ∧ (roots.foldl Pass.enqueue (Pass.start source)).Coherent :=
  Pass.foldl_enqueue_spec Pass.coherent_start roots

/-- A closure goes through steps from the start until nothing is pending. -/
theorem steps_of_closure {out : List ClassName} (h : source.closure roots = .ok out) :
    Stage.Steps source roots (Stage.start roots) ⟨out, []⟩ := by
  obtain ⟨hs, hc⟩ := stage_start source roots
  unfold closure pass at h
  split at h
  · rename_i q hq
    obtain ⟨hsteps, hend, -⟩ := Pass.run_spec hc hq
    rw [Except.ok.injEq] at h
    have hq' : q.stage = ⟨out, []⟩ := by rw [← h, ← hend]; rfl
    rwa [hs, hq'] at hsteps
  · simp at h

/-- A closure without a result goes through steps from the start until a stage fails. -/
theorem exists_fails_of_closure {fault : Fault} (h : source.closure roots = .error fault) :
    ∃ s, Stage.Steps source roots (Stage.start roots) s ∧ s.Fails source roots fault := by
  obtain ⟨hs, hc⟩ := stage_start source roots
  unfold closure pass at h
  split at h
  · simp at h
  · rename_i failure hf
    rw [Except.error.injEq] at h
    exact h ▸ hs ▸ Pass.run_eq_error hc hf

/-- **The closure is where the steps end.** As a stage has no two ways on, the end of any steps from
    the start is the closure. -/
theorem closure_eq_ok_iff {out : List ClassName} :
    source.closure roots = .ok out ↔ Stage.Steps source roots (Stage.start roots) ⟨out, []⟩ := by
  refine ⟨steps_of_closure, fun h => ?_⟩
  cases hc : source.closure roots with
  | ok out' =>
    have h' := (steps_of_closure hc).steps_of_complete rfl h
    rcases h'.cases_head with he | ⟨t, ht, -⟩
    · rw [(Stage.mk.inj he).1]
    · exact absurd ht (Stage.not_step_of_pending_eq_nil rfl)
  | error fault =>
    -- The stage that fails comes before the end, or is it. Either way it cannot fail.
    obtain ⟨s, hs, hf⟩ := exists_fails_of_closure hc
    rcases (h.steps_of_complete rfl hs).cases_head with rfl | ⟨t, ht, -⟩
    · cases hf
    · exact absurd hf ht.not_fails

end ClassSource

end PrimaryDex
