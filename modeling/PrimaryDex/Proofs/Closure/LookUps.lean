import PrimaryDex.Proofs.Closure.Reachability

namespace PrimaryDex

/-!
# One look-up for each name

A pass asks its source for a name at most once, however it ends. A class that was found leaves the
kept ones whenever it is consulted, so the names are followed through all places where they can be.

* `Pass.Accounts` — the names that the source was asked for, each once, are those that are resolved,
  missing, kept or at hand. So nothing outside these has been asked for (`Accounts.not_mem_asked`), and
  a look-up puts the class that it finds at hand (`Accounts.of_lookUp_eq_some`);
* `Pass.Ends` — what is known of them when a fault ends the pass;
* `Pass.accounted_ascend`, `Pass.accounted_settle`, `Pass.accounted_run` — either holds when an ascent,
  a settling and a run are over;
* `ClassSource.asked`, `ClassSource.count_asked` — hence no name is asked for twice in a pass. The
  classes of a closure are asked for, and the class whose fault it is when the pass fails.
-/

namespace Pass

variable {source : ClassSource}

/-- The class that a turn leaves. -/
def Visit.left? : Visit source → Option ClassName
  | enter _ => none
  | leave n .. => some n

/-- The classes that were entered and are yet to be left. -/
def atHand (stack : List (Visit source)) : List ClassName := stack.filterMap Visit.left?

/-- A class that is about to be entered is not at hand yet. -/
@[simp] theorem atHand_enter (n : ClassName) (rest : List (Visit source)) :
    atHand (.enter n :: rest) = atHand rest := rfl

/-- A class that is yet to be left is at hand. -/
@[simp] theorem atHand_leave (n : ClassName) (c : ClassFile) (hc : source.find n = .ok c)
    (rest : List (Visit source)) : atHand (.leave n c hc :: rest) = n :: atHand rest := rfl

/-- Classes that are to be entered add nothing to those at hand. -/
@[simp] theorem atHand_map_append (ns : List ClassName) (rest : List (Visit source)) :
    atHand (ns.map .enter ++ rest) = atHand rest := by
  induction ns with
  | nil => rfl
  | cons n ns ih => rw [List.map_cons, List.cons_append, atHand_enter, ih]

/-- Where classes are only entered, none is at hand. -/
@[simp] theorem atHand_map (ns : List ClassName) :
    atHand (ns.map .enter : List (Visit source)) = [] := by
  have h := atHand_map_append ns ([] : List (Visit source))
  rwa [List.append_nil] at h

/-- The source was asked once for each name that is resolved, missing, kept or at hand, and for no
    other. -/
structure Accounts (p : Pass source) (hand : List ClassName) : Prop where
  nodup : p.asked.Nodup
  mem_iff : ∀ n, n ∈ p.asked
    ↔ p.isResolved n = true ∨ p.missing.contains n = true ∨ p.loaded.contains n = true ∨ n ∈ hand

/-- The source was asked once for each of some names, and what ended the pass is the fault of one of
    them. -/
structure Ends (source : ClassSource) (failure : Failure) : Prop where
  nodup : failure.asked.Nodup
  exists_faulty : ∃ n ∈ failure.asked,
    failure.fault = .missingRoot n ∨ source.Faulty n failure.fault

/-- The accounts when something is over, with nothing at hand. -/
def Accounted : Except Failure (Pass source) → Prop
  | .ok p => p.Accounts []
  | .error failure => Ends source failure

/-- At the start nothing was asked for. -/
theorem accounts_start : (start source).Accounts [] :=
  ⟨List.nodup_nil, by simp [start, isResolved]⟩

/-! ### Operations on the lists -/

/-- Promoting a class leaves the accounts as they are. -/
theorem Accounts.promote {p : Pass source} {hand : List ClassName} (h : p.Accounts hand)
    (n : ClassName) : (p.promote n).Accounts hand := by
  unfold Pass.promote
  split <;> exact ⟨h.nodup, h.mem_iff⟩

/-- Enqueuing a class leaves the accounts as they are. -/
theorem Accounts.enqueue {p : Pass source} {hand : List ClassName} (h : p.Accounts hand)
    (n : ClassName) : (p.enqueue n).Accounts hand := by
  unfold Pass.enqueue
  split
  · exact h
  · exact ⟨h.nodup, h.mem_iff⟩

/-- Enqueuing many classes leaves the accounts as they are. -/
theorem Accounts.foldl_enqueue {p : Pass source} {hand : List ClassName} (h : p.Accounts hand)
    (ns : List ClassName) : (ns.foldl Pass.enqueue p).Accounts hand := by
  induction ns generalizing p with
  | nil => exact h
  | cons n ns ih => exact ih (h.enqueue n)

/-- Taking the first pending class leaves the accounts as they are. -/
theorem Accounts.of_pop? {p q : Pass source} {n : ClassName} {hand : List ClassName}
    (h : p.Accounts hand) (hpop : p.pop? = some (n, q)) : q.Accounts hand := by
  unfold pop? at hpop
  split at hpop
  · simp at hpop
  · simp only [Option.some.injEq, Prod.mk.injEq] at hpop
    rw [← hpop.2]
    exact ⟨h.nodup, h.mem_iff⟩

/-! ### Classes at hand -/

/-- A class at hand can be kept. -/
theorem Accounts.keep {p : Pass source} {n : ClassName} {c : ClassFile} {hand : List ClassName}
    (h : p.Accounts (n :: hand)) (hc : source.find n = .ok c) : (p.keep n c hc).Accounts hand := by
  -- The same names as before, only that `n` has gone from the classes at hand to those kept.
  refine ⟨h.nodup, fun m => (h.mem_iff m).trans ?_⟩
  simp only [Pass.keep, isResolved, Std.HashMap.contains_insert, Bool.or_eq_true, beq_iff_eq,
    List.mem_cons]
  grind

/-- A class at hand can be resolved. -/
theorem Accounts.resolve {p : Pass source} {n : ClassName} {hand : List ClassName}
    (h : p.Accounts (n :: hand)) (hn : p.isResolved n = false) : (p.resolve n).Accounts hand := by
  have hasked : (p.resolve n).asked = p.asked ∧ (p.resolve n).missing = p.missing
      ∧ (p.resolve n).loaded = p.loaded := by simp [Pass.resolve, hn]
  refine ⟨hasked.1 ▸ h.nodup, fun m => ?_⟩
  -- The name goes over from the classes at hand to those resolved.
  rw [hasked.1, hasked.2.1, hasked.2.2, h.mem_iff, isResolved_resolve, Bool.or_eq_true, beq_iff_eq,
    List.mem_cons]
  grind

/-- What is neither resolved nor at hand, neither kept nor known to be missing, was not asked for. -/
theorem Accounts.not_mem_asked {p : Pass source} {n : ClassName} {hand : List ClassName}
    (h : p.Accounts hand) (hr : p.isResolved n = false) (hn : n ∉ hand) (hl : p.loaded[n]? = none)
    (hm : p.missing.contains n = false) : n ∉ p.asked := by
  have hl' : p.loaded.contains n = false := by
    rw [Std.HashMap.contains_eq_isSome_getElem?, hl]
    rfl
  rw [h.mem_iff]
  simp [hr, hm, hl', hn]

/-- A class that is found is at hand then, whether it was kept or the source had to be asked. -/
theorem Accounts.of_lookUp_eq_some {p q : Pass source} {n : ClassName} {hand : List ClassName}
    {found : Found source n} (h : p.Accounts hand) (hr : p.isResolved n = false) (hn : n ∉ hand)
    (hl : p.lookUp n = .ok (q, some found)) : q.Accounts (n :: hand) := by
  cases lookedUp_of_eq hl with
  | kept hc =>
    -- Here `n` is released: it leaves the kept classes, and nothing is asked.
    have hc' : p.loaded.contains n = true := by
      rw [Std.HashMap.contains_eq_isSome_getElem?, hc]
      rfl
    refine ⟨h.nodup, fun m => (h.mem_iff m).trans ?_⟩
    simp only [release, isResolved, Std.HashMap.contains_erase, Bool.and_eq_true,
      Bool.not_eq_true', beq_eq_false_iff_ne, List.mem_cons]
    grind
  | found hc hm _ =>
    refine ⟨List.nodup_cons.2 ⟨h.not_mem_asked hr hn hc hm, h.nodup⟩, fun m => ?_⟩
    rw [List.mem_cons, h.mem_iff, List.mem_cons]
    simp only [isResolved]
    grind

/-- What the source does not have is missing then, and has been asked for. -/
theorem Accounts.of_lookUp_eq_none {p q : Pass source} {n : ClassName} {hand : List ClassName}
    (h : p.Accounts hand) (hr : p.isResolved n = false) (hn : n ∉ hand)
    (hl : p.lookUp n = .ok (q, none)) : q.Accounts hand ∧ n ∈ q.asked := by
  cases lookedUp_of_eq hl with
  | known _ hm => exact ⟨h, (h.mem_iff n).2 (.inr (.inl hm))⟩
  | notFound hc hm _ =>
    refine ⟨⟨List.nodup_cons.2 ⟨h.not_mem_asked hr hn hc hm, h.nodup⟩, fun m => ?_⟩,
      List.mem_cons_self ..⟩
    rw [List.mem_cons, h.mem_iff, Std.HashSet.contains_insert, Bool.or_eq_true, beq_iff_eq]
    simp only [isResolved]
    grind

/-- A look-up that fails ends the pass with accounts in order. -/
theorem Accounts.of_lookUp_eq_error {p : Pass source} {n : ClassName} {hand : List ClassName}
    {failure : Failure} (h : p.Accounts hand) (hr : p.isResolved n = false) (hn : n ∉ hand)
    (hl : p.lookUp n = .error failure) : Ends source failure := by
  cases lookedUp_of_eq hl with
  | failed hc hm hf hother =>
    exact ⟨List.nodup_cons.2 ⟨h.not_mem_asked hr hn hc hm, h.nodup⟩,
      n, List.mem_cons_self .., .inr (.inl ⟨hf, hother⟩)⟩

/-! ### The whole pass -/

/-- An ascent has visited whatever is at hand, so it does not enter it again. -/
theorem accounted_ascend {p : Pass source} {visited : Std.HashSet ClassName}
    {stack : List (Visit source)} (h : p.Accounts (atHand stack))
    (hv : ∀ n ∈ atHand stack, visited.contains n = true) : Accounted (p.ascend visited stack) := by
  -- A turn that goes past the first test is about a name that is neither resolved nor at hand.
  have new_of {p : Pass source} {visited : Std.HashSet ClassName} {n : ClassName}
      {rest : List (Visit source)} (hn : ¬ (p.isResolved n || visited.contains n) = true)
      (hv : ∀ m ∈ atHand rest, visited.contains m = true) :
      p.isResolved n = false ∧ n ∉ atHand rest := by
    simp only [Bool.or_eq_true, not_or, Bool.not_eq_true] at hn
    exact ⟨hn.1, fun hm => by simp [hv n hm] at hn⟩
  fun_induction ascend p visited stack with
  | case1 p => exact h
  | case2 p visited n c hc rest ih =>
    exact ih (h.keep hc) fun m hm => hv m (List.mem_cons_of_mem _ hm)
  | case3 p visited n rest hn ih => exact ih h hv
  | case4 p visited n rest hn f hl =>
    obtain ⟨hr, hh⟩ := new_of hn hv
    exact h.of_lookUp_eq_error hr hh hl
  | case5 p visited n rest hn q hl ih =>
    obtain ⟨hr, hh⟩ := new_of hn hv
    refine ih (h.of_lookUp_eq_none hr hh hl).1 fun m hm => ?_
    simp [hv m hm]
  | case6 p visited n rest hn q c hc hl ih =>
    obtain ⟨hr, hh⟩ := new_of hn hv
    rw [atHand_map_append, atHand_leave] at ih
    -- Until its own ancestors have had their turns, `n` is at hand, and it is visited.
    refine ih ((h.of_lookUp_eq_some hr hh hl).promote n) fun m hm => ?_
    rcases List.mem_cons.1 hm with rfl | hm
    · exact Std.HashSet.contains_insert_self
    · simp [hv m hm]

/-- A class at hand is resolved before the ascent to its ancestors, so it is not entered either. -/
theorem accounted_settle {p : Pass source} {n : ClassName} {c : ClassFile} (h : p.Accounts [n])
    (hc : source.find n = .ok c) (hn : p.isResolved n = false) : Accounted (p.settle n c) := by
  have hup : Accounted ((p.resolve n).ascend ∅ (c.ancestors.map .enter)) := by
    refine accounted_ascend ?_ (by simp)
    rw [atHand_map]
    exact h.resolve hn
  unfold settle
  split
  · rename_i f hf
    rwa [hf] at hup
  · rename_i q hq
    rw [hq] at hup
    -- A class with faulty references was asked for before they were read.
    have hasked : n ∈ q.asked := by
      refine (hup.mem_iff n).2 (.inl ?_)
      rw [isResolved_ascend hq, isResolved_resolve]
      simp
    split
    · exact hup.foldl_enqueue _
    · rename_i hr
      exact ⟨hup.nodup, n, hasked, .inr (.inr ⟨c, hc, hr⟩)⟩

/-- **A run asks for nothing twice.** -/
theorem accounted_run {p : Pass source} {roots : Std.HashSet ClassName} (h : p.Accounts []) :
    Accounted (p.run roots) := by
  fun_induction run roots p with
  | case1 p hpop => exact h
  | case2 p n q hpop hr ih => exact ih (h.of_pop? hpop)
  | case3 p n q hpop hr f hl =>
    exact (h.of_pop? hpop).of_lookUp_eq_error (by simpa using hr) List.not_mem_nil hl
  | case4 p n q hpop hr r hl hroot =>
    obtain ⟨hacc, hasked⟩ :=
      (h.of_pop? hpop).of_lookUp_eq_none (by simpa using hr) List.not_mem_nil hl
    exact ⟨hacc.nodup, n, hasked, .inl rfl⟩
  | case5 p n q hpop hr r hl hroot ih =>
    exact ih ((h.of_pop? hpop).of_lookUp_eq_none (by simpa using hr) List.not_mem_nil hl).1
  -- The class that was taken is at hand while it is settled.
  | case6 p n q hpop hr r c hc hl f hs =>
    have hr' : q.isResolved n = false := by simpa using hr
    have hhand := (h.of_pop? hpop).of_lookUp_eq_some hr' List.not_mem_nil hl
    exact hs ▸ accounted_settle hhand hc (isResolved_of_lookUp hl n ▸ hr')
  | case7 p n q hpop hr r c hc hl t hs ih =>
    have hr' : q.isResolved n = false := by simpa using hr
    have hhand := (h.of_pop? hpop).of_lookUp_eq_some hr' List.not_mem_nil hl
    have hset := accounted_settle hhand hc (isResolved_of_lookUp hl n ▸ hr')
    rw [hs] at hset
    exact ih hset

end Pass

namespace ClassSource

open Sample (app api base helper object)

variable {source : ClassSource} {roots : List ClassName}

/-- The names that the source is asked for in a pass over some roots, however the pass ends. -/
def asked (source : ClassSource) (roots : List ClassName) : List ClassName :=
  match source.pass roots with
  | .ok p => p.asked
  | .error failure => failure.asked

/-- The accounts of a whole pass are in order. -/
theorem accounted_pass (source : ClassSource) (roots : List ClassName) :
    Pass.Accounted (source.pass roots) :=
  Pass.accounted_run (Pass.accounts_start.foldl_enqueue roots)

/-- No name is asked for twice. -/
theorem nodup_asked (source : ClassSource) (roots : List ClassName) :
    (source.asked roots).Nodup := by
  have h := accounted_pass source roots
  unfold asked
  split
  · rename_i p hp
    rw [hp] at h
    exact Pass.Accounts.nodup h
  · rename_i f hf
    rw [hf] at h
    exact Pass.Ends.nodup h

/-- What is resolved has been asked for. -/
theorem closure_subset_asked {out : List ClassName} (h : source.closure roots = .ok out) :
    out ⊆ source.asked roots := by
  have hacc := accounted_pass source roots
  unfold closure at h
  split at h
  · rename_i p hp
    rw [hp] at hacc
    rw [Except.ok.injEq] at h
    obtain ⟨-, -, hc⟩ := Pass.run_spec (stage_start source roots).2 hp
    intro n hn
    rw [← h] at hn
    have hr : p.isResolved n = true := (hc.isResolved_iff n).2 hn
    rw [asked, hp]
    exact (Pass.Accounts.mem_iff hacc n).2 (.inl hr)
  · simp at h

/-- A pass that fails has asked for the class whose fault it is. -/
theorem exists_mem_asked_of_closure {fault : Fault} (h : source.closure roots = .error fault) :
    ∃ n ∈ source.asked roots, fault = .missingRoot n ∨ source.Faulty n fault := by
  have hacc := accounted_pass source roots
  unfold closure at h
  split at h
  · simp at h
  · rename_i f hf
    rw [hf] at hacc
    rw [Except.error.injEq] at h
    rw [asked, hf, ← h]
    exact Pass.Ends.exists_faulty hacc

/-- **One look-up for each name.** A pass asks its source for no name twice, however it ends. It asks
    once for each class of a closure, and when it fails, for the class whose fault it is. -/
theorem count_asked (source : ClassSource) (roots : List ClassName) :
    (∀ n, (source.asked roots).count n ≤ 1)
      ∧ (∀ out, source.closure roots = .ok out → ∀ n ∈ out, (source.asked roots).count n = 1)
      ∧ ∀ fault, source.closure roots = .error fault →
        ∃ n, (fault = .missingRoot n ∨ source.Faulty n fault)
          ∧ (source.asked roots).count n = 1 := by
  have hnd := nodup_asked source roots
  refine ⟨fun n => List.nodup_iff_count_le_one.1 hnd n, fun out h n hn => ?_, fun fault h => ?_⟩
  · exact List.count_eq_one_of_mem hnd (closure_subset_asked h hn)
  · obtain ⟨n, hn, hfault⟩ := exists_mem_asked_of_closure h
    exact ⟨n, hfault, List.count_eq_one_of_mem hnd hn⟩

/-- Each class of a closure is asked for once. Where a root is missing, so is the class whose fault it
    is. -/
theorem count_asked_app :
    (∀ n ∈ [app, api, base, helper], (Sample.source.asked [app, helper, base]).count n = 1)
      ∧ ∃ fault, Sample.source.closure [app, object] = .error fault
        ∧ ∃ n, (fault = .missingRoot n ∨ Sample.source.Faulty n fault)
          ∧ (Sample.source.asked [app, object]).count n = 1 := by
  refine ⟨(count_asked Sample.source [app, helper, base]).2.1 _ Sample.closure_app, ?_⟩
  cases h : Sample.source.closure [app, object] with
  | ok out =>
    exact absurd Sample.lacks_object
      (Has.not_lacks ((tolerable_of_closure h).has_root object (by simp)))
  | error fault => exact ⟨fault, rfl, (count_asked Sample.source [app, object]).2.2 fault h⟩

end ClassSource

end PrimaryDex
