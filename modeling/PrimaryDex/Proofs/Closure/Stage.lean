import Mathlib.Data.List.Nodup
import PrimaryDex.Proofs.Closure.Lineage

namespace PrimaryDex

open Relation

/-!
# The stages of a pass

Where a pass stands, without the records that only save it work: two lists, which are searched, and
a source, which is asked whenever a class is needed.

* `Stage` — what is resolved and what is pending, with `enqueue`, `promote` and `settle`;
* `Stage.Step` — what settling the first pending class does; `Stage.Fails` — when that ends a pass;
* `Stage.Tidy` — nothing is listed twice. Each step keeps it (`Step.tidy`);
* `Step.unique`, `Step.not_fails` — a stage has one step or one fault, so that two complete runs
  from one stage are the same (`Steps.steps_of_complete`).
-/

/-- What is resolved, in order, and what is pending. -/
@[ext] structure Stage where
  resolved : List ClassName
  pending : List ClassName
  deriving DecidableEq

namespace Stage

variable {source : ClassSource} {roots : List ClassName}

/-- Puts a class behind the pending ones, unless it is among them or resolved. -/
def enqueue (s : Stage) (n : ClassName) : Stage :=
  if n ∈ s.resolved ∨ n ∈ s.pending then s else { s with pending := s.pending ++ [n] }

/-- Puts classes in front of the pending ones, the last one first, from their places if they are
    among them. -/
def promote (s : Stage) (ns : List ClassName) : Stage :=
  { s with pending := ns.reverse ++ s.pending.filter (· ∉ ns) }

/-- Resolves a class, promotes its lineage and enqueues its references. -/
def settle (s : Stage) (n : ClassName) (lineage referenced : List ClassName) : Stage :=
  referenced.foldl enqueue (promote ⟨s.resolved ++ [n], s.pending⟩ lineage)

/-- The stage before a pass over some roots. -/
def start (roots : List ClassName) : Stage := roots.foldl enqueue ⟨[], []⟩

/-! ### What the operations do -/

/-- Promoting resolves nothing. -/
@[simp] theorem resolved_promote (s : Stage) (ns : List ClassName) :
    (s.promote ns).resolved = s.resolved := rfl

/-- Without classes to promote, nothing changes. -/
@[simp] theorem promote_nil (s : Stage) : s.promote [] = s := by
  have h : s.pending.filter (· ∉ []) = s.pending := by
    rw [List.filter_eq_self]
    simp
  rw [promote, h]
  rfl

/-- Promoting one class and then others is promoting all of them. -/
theorem promote_promote (s : Stage) {n : ClassName} {ns : List ClassName} (hn : n ∉ ns) :
    (s.promote [n]).promote ns = s.promote (n :: ns) := by
  -- As `n` is not among `ns`, it stays in front of what was pending before.
  have h : (s.pending.filter (· ∉ [n])).filter (· ∉ ns) = s.pending.filter (· ∉ n :: ns) := by
    rw [List.filter_filter]
    refine List.filter_congr fun m _ => ?_
    simp [Bool.and_comm]
  simp only [promote, List.reverse_singleton, List.filter_append, h]
  simp [hn]

/-- After promoting, the pending classes are the old ones and the promoted ones. -/
theorem mem_promote {s : Stage} {ns : List ClassName} {m : ClassName} :
    m ∈ (s.promote ns).pending ↔ m ∈ ns ∨ m ∈ s.pending := by
  by_cases h : m ∈ ns <;> simp [promote, h]

/-- Enqueuing resolves nothing. -/
@[simp] theorem resolved_enqueue (s : Stage) (n : ClassName) :
    (s.enqueue n).resolved = s.resolved := by
  unfold enqueue
  split <;> rfl

/-- A class is enqueued at the back, if it is neither resolved nor pending. -/
theorem pending_enqueue (s : Stage) (n : ClassName) :
    (s.enqueue n).pending
      = s.pending ++ if n ∈ s.resolved ∨ n ∈ s.pending then [] else [n] := by
  unfold enqueue
  split <;> simp

/-- Enqueuing many classes resolves none of them. -/
@[simp] theorem resolved_foldl_enqueue (s : Stage) (ns : List ClassName) :
    (ns.foldl enqueue s).resolved = s.resolved := by
  induction ns generalizing s with
  | nil => rfl
  | cons n ns ih => rw [List.foldl_cons, ih, resolved_enqueue]

/-- Enqueuing adds at the back, and only what is neither pending nor resolved. -/
theorem exists_foldl_enqueue (s : Stage) (ns : List ClassName) :
    ∃ added, (ns.foldl enqueue s).pending = s.pending ++ added ∧
      ∀ m, m ∈ added ↔ m ∈ ns ∧ m ∉ s.resolved ∧ m ∉ s.pending := by
  induction ns generalizing s with
  | nil => exact ⟨[], by simp⟩
  -- The first class is either skipped or the first one added.
  | cons n ns ih =>
    obtain ⟨added, hp, hm⟩ := ih (s.enqueue n)
    rw [pending_enqueue] at hp hm
    rw [resolved_enqueue] at hm
    split at hp
    · rename_i hn
      refine ⟨added, by simpa using hp, fun m => ?_⟩
      rw [hm, if_pos hn, List.mem_cons]
      grind
    · rename_i hn
      refine ⟨n :: added, by simpa using hp, fun m => ?_⟩
      rw [List.mem_cons, hm, if_neg hn, List.mem_cons]
      grind

/-- After enqueuing, the pending classes are the old ones and those that were not resolved. -/
theorem mem_foldl_enqueue {s : Stage} {ns : List ClassName} {m : ClassName} :
    m ∈ (ns.foldl enqueue s).pending ↔ m ∈ s.pending ∨ m ∈ ns ∧ m ∉ s.resolved := by
  obtain ⟨added, hp, hm⟩ := exists_foldl_enqueue s ns
  rw [hp, List.mem_append, hm]
  by_cases h : m ∈ s.pending <;> simp [h]

/-- Settling a class resolves that class, behind all others. -/
@[simp] theorem resolved_settle (s : Stage) (n : ClassName) (lineage referenced : List ClassName) :
    (s.settle n lineage referenced).resolved = s.resolved ++ [n] := by
  rw [settle, resolved_foldl_enqueue, resolved_promote]

/-- Settling puts the lineage in front, the last one first, and new references at the back. -/
theorem exists_settle_eq (s : Stage) (n : ClassName) (lineage referenced : List ClassName) :
    ∃ added, s.settle n lineage referenced
        = ⟨s.resolved ++ [n], lineage.reverse ++ s.pending.filter (· ∉ lineage) ++ added⟩
      ∧ ∀ m, m ∈ added ↔ m ∈ referenced ∧ m ∉ s.resolved ++ [n] ∧ m ∉ lineage ∧ m ∉ s.pending := by
  obtain ⟨added, hp, hm⟩ :=
    exists_foldl_enqueue (promote ⟨s.resolved ++ [n], s.pending⟩ lineage) referenced
  refine ⟨added, Stage.ext (resolved_settle s n lineage referenced) hp, fun m => ?_⟩
  rw [hm, mem_promote, not_or]
  rfl

/-- Settling keeps apart what is in front and what is behind. -/
theorem exists_settle_append_eq (resolved front back : List ClassName) (n : ClassName)
    (lineage referenced : List ClassName) :
    ∃ added, settle ⟨resolved, front ++ back⟩ n lineage referenced
        = ⟨resolved ++ [n], (lineage.reverse ++ front.filter (· ∉ lineage))
            ++ (back.filter (· ∉ lineage) ++ added)⟩
      ∧ ∀ m, m ∈ added
          ↔ m ∈ referenced ∧ m ∉ resolved ++ [n] ∧ m ∉ lineage ∧ m ∉ front ++ back := by
  obtain ⟨added, hs, hm⟩ := exists_settle_eq ⟨resolved, front ++ back⟩ n lineage referenced
  refine ⟨added, ?_, hm⟩
  rw [hs, List.filter_append]
  simp only [List.append_assoc]

/-- Classes that are new and all different are enqueued in their order. -/
theorem foldl_enqueue_of_nodup (pending : List ClassName) {ns : List ClassName}
    (h : (pending ++ ns).Nodup) : ns.foldl enqueue ⟨[], pending⟩ = ⟨[], pending ++ ns⟩ := by
  induction ns generalizing pending with
  | nil => simp
  | cons n ns ih =>
    have hn : n ∉ pending := fun hn =>
      (List.nodup_append.1 h).2.2 n hn n (List.mem_cons_self ..) rfl
    have he : enqueue ⟨[], pending⟩ n = ⟨[], pending ++ [n]⟩ := by simp [enqueue, hn]
    rw [List.append_cons] at h ⊢
    rw [List.foldl_cons, he, ih _ h]

/-- Roots that are named once each are pending in their order. -/
theorem start_of_nodup {ns : List ClassName} (h : ns.Nodup) : start ns = ⟨[], ns⟩ :=
  foldl_enqueue_of_nodup [] h

/-- At the start nothing is resolved. -/
theorem start_eq (roots : List ClassName) : start roots = ⟨[], (start roots).pending⟩ :=
  Stage.ext (resolved_foldl_enqueue ..) rfl

/-! ### Steps and faults -/

/-- What settling the first pending class does. A class that the source lacks is dropped, unless it
    is a root. One that it has is resolved, its lineage outside the resolved classes is promoted,
    and its references are enqueued. -/
inductive Step (source : ClassSource) (roots : List ClassName) : Stage → Stage → Prop where
  | drop {n : ClassName} {resolved rest : List ClassName} (hn : source.Lacks n) (hr : n ∉ roots) :
      Step source roots ⟨resolved, n :: rest⟩ ⟨resolved, rest⟩
  | settle {n : ClassName} {resolved rest lineage referenced : List ClassName} {c : ClassFile}
      (hc : source.find n = .ok c)
      (hl : source.lineage (resolved ++ [n]).contains c.ancestors = .ok lineage)
      (hr : c.referenced = .ok referenced) :
      Step source roots ⟨resolved, n :: rest⟩ (settle ⟨resolved, rest⟩ n lineage referenced)

/-- When settling the first pending class ends a pass, and with which fault. -/
inductive Fails (source : ClassSource) (roots : List ClassName) : Stage → Fault → Prop where
  | missingRoot {n : ClassName} {resolved rest : List ClassName} (hn : source.Lacks n)
      (hr : n ∈ roots) : Fails source roots ⟨resolved, n :: rest⟩ (.missingRoot n)
  | found {n : ClassName} {resolved rest : List ClassName} {fault : Fault}
      (hf : source.find n = .error fault) (hl : ∀ m, fault ≠ .classNotFound m) :
      Fails source roots ⟨resolved, n :: rest⟩ fault
  | lineage {n : ClassName} {resolved rest : List ClassName} {c : ClassFile} {fault : Fault}
      (hc : source.find n = .ok c)
      (hl : source.lineage (resolved ++ [n]).contains c.ancestors = .error fault) :
      Fails source roots ⟨resolved, n :: rest⟩ fault
  | referenced {n : ClassName} {resolved rest ns : List ClassName} {c : ClassFile} {fault : Fault}
      (hc : source.find n = .ok c)
      (hl : source.lineage (resolved ++ [n]).contains c.ancestors = .ok ns)
      (hr : c.referenced = .error fault) : Fails source roots ⟨resolved, n :: rest⟩ fault

/-- The stages that come after a stage, itself included. -/
abbrev Steps (source : ClassSource) (roots : List ClassName) : Stage → Stage → Prop :=
  ReflTransGen (Step source roots)

/-- A stage has one step at most. -/
theorem Step.unique {s t u : Stage} (ht : Step source roots s t) (hu : Step source roots s u) :
    t = u := by
  cases ht with
  | drop hn hr =>
    cases hu with
    | drop => rfl
    | settle hc _ _ => exact absurd hn (ClassSource.Has.not_lacks ⟨_, hc⟩)
  -- The source answers once and for all, so both steps settle the same class in the same way.
  | settle hc hl hr =>
    cases hu with
    | drop hn _ => exact absurd hn (ClassSource.Has.not_lacks ⟨_, hc⟩)
    | settle hc' hl' hr' =>
      obtain rfl := Except.ok.inj (hc.symm.trans hc')
      obtain rfl := Except.ok.inj (hl.symm.trans hl')
      obtain rfl := Except.ok.inj (hr.symm.trans hr')
      rfl

/-- A stage that has a step does not fail. -/
theorem Step.not_fails {s t : Stage} {fault : Fault} (ht : Step source roots s t) :
    ¬ Fails source roots s fault := by
  intro hf
  cases ht with
  -- Each way to fail needs an answer of the source that the step excludes.
  | drop hn hr =>
    obtain ⟨m, hm⟩ := hn
    cases hf with
    | missingRoot _ hr' => exact hr hr'
    | found hf hl => exact hl m (Except.error.inj (hf.symm.trans hm))
    | lineage hc _ => simp [hc] at hm
    | referenced hc _ _ => simp [hc] at hm
  | settle hc hl hr =>
    cases hf with
    | missingRoot hn _ => exact absurd hn (ClassSource.Has.not_lacks ⟨_, hc⟩)
    | found hf _ => simp [hc] at hf
    | lineage hc' hl' =>
      obtain rfl := Except.ok.inj (hc.symm.trans hc')
      simp [hl] at hl'
    | referenced hc' _ hr' =>
      obtain rfl := Except.ok.inj (hc.symm.trans hc')
      simp [hr] at hr'

/-- A stage where nothing is pending has no step. -/
theorem not_step_of_pending_eq_nil {s t : Stage} (hs : s.pending = []) :
    ¬ Step source roots s t := by
  rintro (_ | _) <;> simp at hs

/-- A complete run goes through every stage that can be reached from its start. -/
theorem Steps.steps_of_complete {s t u : Stage} (ht : Steps source roots s t)
    (hp : t.pending = []) (hu : Steps source roots s u) : Steps source roots u t := by
  induction hu with
  | refl => exact ht
  | tail _ hv ih =>
    -- The complete run is not at its end yet, so its next step is the one to be matched.
    rcases ih.cases_head with rfl | ⟨w, hw, hwt⟩
    · exact absurd hv (not_step_of_pending_eq_nil hp)
    · exact hv.unique hw ▸ hwt

/-! ### What every step keeps -/

/-- Nothing is listed twice. -/
structure Tidy (s : Stage) : Prop where
  nodup_resolved : s.resolved.Nodup
  nodup_pending : s.pending.Nodup
  not_resolved : ∀ n ∈ s.pending, n ∉ s.resolved

/-- Enqueuing a class keeps a stage tidy. -/
theorem Tidy.enqueue {s : Stage} (h : s.Tidy) (n : ClassName) : (s.enqueue n).Tidy := by
  unfold Stage.enqueue
  split
  · exact h
  · rename_i hn
    rw [not_or] at hn
    refine ⟨h.nodup_resolved, ?_, ?_⟩
    · exact h.nodup_pending.append (List.nodup_singleton n) (by simpa using hn.2)
    · simpa [or_imp, forall_and, hn.1] using h.not_resolved

/-- Enqueuing many classes keeps a stage tidy. -/
theorem Tidy.foldl_enqueue {s : Stage} (h : s.Tidy) (ns : List ClassName) :
    (ns.foldl Stage.enqueue s).Tidy := by
  induction ns generalizing s with
  | nil => exact h
  | cons n ns ih => exact ih (h.enqueue n)

/-- Classes that are moved to the front are listed once, as they are taken from their old places. -/
theorem nodup_reverse_append_filter {pending ns : List ClassName} (hd : ns.Nodup)
    (hp : pending.Nodup) : (ns.reverse ++ pending.filter (· ∉ ns)).Nodup := by
  refine (List.nodup_reverse.2 hd).append (hp.filter _) fun m hm hm' => ?_
  simp [List.mem_reverse.1 hm] at hm'

/-- Promoting classes that are not resolved keeps a stage tidy. -/
theorem Tidy.promote {s : Stage} (h : s.Tidy) {ns : List ClassName} (hd : ns.Nodup)
    (hn : ∀ n ∈ ns, n ∉ s.resolved) : (s.promote ns).Tidy := by
  refine ⟨h.nodup_resolved, nodup_reverse_append_filter hd h.nodup_pending, fun m hm => ?_⟩
  exact (mem_promote.1 hm).elim (hn m) (h.not_resolved m)

/-- The start is tidy, however often a root is named. -/
theorem tidy_start (roots : List ClassName) : (start roots).Tidy :=
  Tidy.foldl_enqueue ⟨List.nodup_nil, List.nodup_nil, by simp⟩ roots

/-- Taking up the first pending class keeps a stage tidy. -/
theorem Tidy.resolve {n : ClassName} {resolved rest : List ClassName}
    (h : Tidy ⟨resolved, n :: rest⟩) : Tidy ⟨resolved ++ [n], rest⟩ := by
  obtain ⟨hr, hp, hn⟩ := h
  have hp := List.nodup_cons.1 hp
  refine ⟨?_, hp.2, fun m hm => ?_⟩
  · exact hr.append (List.nodup_singleton n) (by simpa using hn n (List.mem_cons_self ..))
  · have hmn : m ≠ n := fun he => hp.1 (he ▸ hm)
    simpa [hmn] using hn m (List.mem_cons_of_mem _ hm)

/-- **Invariant.** A step keeps a stage tidy. -/
theorem Step.tidy {s t : Stage} (h : Step source roots s t) (hs : s.Tidy) : t.Tidy := by
  cases h with
  | drop hn hr =>
    exact ⟨hs.nodup_resolved, (List.nodup_cons.1 hs.nodup_pending).2,
      fun m hm => hs.not_resolved m (List.mem_cons_of_mem _ hm)⟩
  | settle hc hl hr =>
    -- A lineage lists no class twice and none that is resolved, the one at hand included.
    refine (hs.resolve.promote (ClassSource.nodup_lineage hl) fun m hm => ?_).foldl_enqueue _
    simpa using (ClassSource.free_of_mem_lineage hl m hm).2

/-- All stages behind a tidy one are tidy. -/
theorem Steps.tidy {s t : Stage} (h : Steps source roots s t) (hs : s.Tidy) : t.Tidy := by
  induction h with
  | refl => exact hs
  | tail _ ht ih => exact ht.tidy ih

/-- What is resolved stays so, in its place. -/
theorem Steps.resolved_prefix {s t : Stage} (h : Steps source roots s t) :
    s.resolved <+: t.resolved := by
  induction h with
  | refl => exact List.prefix_refl _
  | tail _ ht ih =>
    cases ht with
    | drop => exact ih
    | settle =>
      rw [resolved_settle]
      exact ih.trans (List.prefix_append ..)

end Stage

end PrimaryDex
