import PrimaryDex.Proofs.Closure.Blocks

namespace PrimaryDex

open Relation

/-!
# First come, first served

Classes that do not follow a class as its ancestors are resolved in the order in which they were first
called for, as a root or as a reference of a class that is resolved.

* `ClassSource.calls` — the roots, and then the references of the classes in the order of resolution;
* `ClassSource.Leads` — a class is no ancestor of any before it, so it has its place by its own right;
* `Stage.InTurn` — such classes are pending in the order of their first calls. Each operation of a
  stage keeps it, and so does a step (`Step.inTurn`);
* `ClassSource.closure_serves_in_turn` — hence they stand in this order in a closure.
-/

namespace ClassSource

variable {source : ClassSource}

/-- The references of a class. Where they cannot be read, there are none. -/
def referencesOf (source : ClassSource) (n : ClassName) : List ClassName :=
  (source.find n >>= ClassFile.referenced).toOption.getD []

/-- The references of a class that is there and can be read. -/
theorem referencesOf_eq {n : ClassName} {c : ClassFile} {ns : List ClassName}
    (hc : source.find n = .ok c) (hr : c.referenced = .ok ns) : source.referencesOf n = ns := by
  rw [referencesOf, hc]
  show c.referenced.toOption.getD [] = ns
  rw [hr]
  rfl

/-- What is called for, in order: the roots, and what the classes of `resolved` refer to. -/
def calls (source : ClassSource) (roots resolved : List ClassName) : List ClassName :=
  roots ++ resolved.flatMap source.referencesOf

/-- The calls of more classes come behind. -/
theorem calls_append (roots resolved more : List ClassName) :
    source.calls roots (resolved ++ more)
      = source.calls roots resolved ++ more.flatMap source.referencesOf := by
  simp only [calls, List.flatMap_append, List.append_assoc]

/-- No class of `before` has `n` for an ancestor. -/
def Leads (source : ClassSource) (before : List ClassName) (n : ClassName) : Prop :=
  ∀ a ∈ before, ¬ TransGen source.Extends a n

/-- What leads behind some classes leads behind fewer. -/
theorem Leads.of_subset {before before' : List ClassName} {n : ClassName}
    (h : source.Leads before' n) (hs : before ⊆ before') : source.Leads before n :=
  fun a ha => h a (hs ha)

end ClassSource

namespace Stage

variable {source : ClassSource} {roots : List ClassName}

/-- The class is there and is no ancestor of a resolved one. -/
def Awaits (source : ClassSource) (s : Stage) (n : ClassName) : Prop :=
  source.Has n ∧ source.Leads s.resolved n

/-- Pending classes with a place of their own stand in the order of their first calls, and what was
    called for and is there has not been lost. -/
structure InTurn (source : ClassSource) (calls : List ClassName) (s : Stage) : Prop where
  mem_calls : ∀ n ∈ s.pending, s.Awaits source n → n ∈ calls
  pairwise : s.pending.Pairwise fun a b =>
    s.Awaits source a → s.Awaits source b → calls.idxOf a < calls.idxOf b
  lists : ∀ n ∈ calls, source.Has n → s.Lists n

/-- What has been called for comes before what has not. -/
theorem idxOf_append_lt {calls more : List ClassName} {a b : ClassName} (ha : a ∈ calls)
    (hb : b ∉ calls) : (calls ++ more).idxOf a < (calls ++ more).idxOf b := by
  rw [List.idxOf_append_of_mem ha, List.idxOf_append_of_notMem hb]
  have := List.idxOf_lt_length_iff.2 ha
  omega

/-- More calls leave the order of earlier ones as it is. -/
theorem idxOf_append_lt_of_mem {calls more : List ClassName} {a b : ClassName} (ha : a ∈ calls)
    (hb : b ∈ calls) (h : calls.idxOf a < calls.idxOf b) :
    (calls ++ more).idxOf a < (calls ++ more).idxOf b := by
  rwa [List.idxOf_append_of_mem ha, List.idxOf_append_of_mem hb]

/-- Where nothing was called for, nothing is out of turn. -/
theorem inTurn_nil : InTurn source [] ⟨[], []⟩ :=
  ⟨by simp, List.Pairwise.nil, by simp⟩

/-- A class that is called for goes behind all that were called for before, or is listed already. -/
theorem InTurn.enqueue {calls : List ClassName} {s : Stage} (h : InTurn source calls s)
    (n : ClassName) : InTurn source (calls ++ [n]) (s.enqueue n) := by
  have hawaits (m : ClassName) : (s.enqueue n).Awaits source m ↔ s.Awaits source m := by
    simp only [Awaits, resolved_enqueue]
  have hold : s.pending.Pairwise fun a b => (s.enqueue n).Awaits source a →
      (s.enqueue n).Awaits source b → (calls ++ [n]).idxOf a < (calls ++ [n]).idxOf b := by
    refine h.pairwise.imp_of_mem fun {a b} ha hb hab ha' hb' => ?_
    rw [hawaits] at ha' hb'
    exact idxOf_append_lt_of_mem (h.mem_calls a ha ha') (h.mem_calls b hb hb') (hab ha' hb')
  by_cases hn : n ∈ s.resolved ∨ n ∈ s.pending
  · have hs : s.enqueue n = s := if_pos hn
    -- A class that is listed already adds a call and no place.
    rw [hs] at hold ⊢
    refine ⟨fun m hm hm' => List.mem_append_left _ (h.mem_calls m hm hm'), hold, fun m hm hm' => ?_⟩
    rcases List.mem_append.1 hm with hm | hm
    · exact h.lists m hm hm'
    · exact List.mem_singleton.1 hm ▸ hn
  · -- A class that is new goes behind all others, and it is called for last.
    have hp : (s.enqueue n).pending = s.pending ++ [n] := by
      rw [pending_enqueue, if_neg hn]
    have hlists (m : ClassName) (hm : s.Lists m ∨ m = n) : (s.enqueue n).Lists m := by
      rw [Lists, resolved_enqueue, hp]
      rcases hm with (hm | hm) | rfl
      · exact .inl hm
      · exact .inr (List.mem_append_left _ hm)
      · exact .inr (by simp)
    refine ⟨fun m hm hm' => ?_, ?_, fun m hm hm' => ?_⟩
    · rw [hp] at hm
      rw [hawaits] at hm'
      rcases List.mem_append.1 hm with hm | hm
      · exact List.mem_append_left _ (h.mem_calls m hm hm')
      · exact List.mem_append_right _ hm
    · rw [hp, List.pairwise_append]
      refine ⟨hold, List.pairwise_singleton _ _, fun a ha b hb ha' hb' => ?_⟩
      obtain rfl := List.mem_singleton.1 hb
      rw [hawaits] at ha' hb'
      -- Had `b` been called for before, it would be listed, as it is there.
      exact idxOf_append_lt (h.mem_calls a ha ha') fun hb => hn (h.lists b hb hb'.1)
    · rcases List.mem_append.1 hm with hm | hm
      · exact hlists m (.inl (h.lists m hm hm'))
      · exact hlists m (.inr (List.mem_singleton.1 hm))

/-- Classes that are called for one after the other stay in turn. -/
theorem InTurn.foldl_enqueue {calls : List ClassName} {s : Stage} (h : InTurn source calls s)
    (ns : List ClassName) : InTurn source (calls ++ ns) (ns.foldl Stage.enqueue s) := by
  induction ns generalizing calls s with
  | nil => rwa [List.append_nil]
  | cons n ns ih =>
    rw [List.append_cons]
    exact ih (h.enqueue n)

/-- Resolving the first class and promoting its lineage takes nothing out of turn: the lineage consists
    of its ancestors, which have no place of their own any more. -/
theorem InTurn.promote {calls resolved rest lineage : List ClassName} {n : ClassName}
    {c : ClassFile} (h : InTurn source calls ⟨resolved, n :: rest⟩) (hc : source.find n = .ok c)
    (hl : source.lineage (resolved ++ [n]).contains c.ancestors = .ok lineage) :
    InTurn source calls (promote ⟨resolved ++ [n], rest⟩ lineage) := by
  -- What nothing resolved leads to is no ancestor of the class that is settled.
  have not_lineage {m : ClassName} (hm : source.Leads (resolved ++ [n]) m) : m ∉ lineage := by
    intro hml
    have hup := (ClassSource.mem_lineage_iff hc hl).1 hml
    exact hm n (by simp) (TransGen.mono (fun _ _ h => h.1) _ _ hup)
  have awaits_of {m : ClassName} (hm : Awaits source ⟨resolved ++ [n], rest⟩ m) :
      Awaits source ⟨resolved, n :: rest⟩ m :=
    ⟨hm.1, hm.2.of_subset (List.subset_append_left _ _)⟩
  refine ⟨fun m hm hm' => ?_, ?_, fun m hm hm' => ?_⟩
  · have hmr := (mem_promote.1 hm).resolve_left (not_lineage hm'.2)
    exact h.mem_calls m (List.mem_cons_of_mem _ hmr) (awaits_of hm')
  · rw [Stage.promote, List.pairwise_append]
    have hrest := ((List.pairwise_cons.1 h.pairwise).2.filter (· ∉ lineage)).imp
      fun {a b} hab (ha : Awaits source ⟨resolved ++ [n], rest⟩ a)
        (hb : Awaits source ⟨resolved ++ [n], rest⟩ b) => hab (awaits_of ha) (awaits_of hb)
    refine ⟨List.pairwise_of_forall_mem_list fun a ha _ _ ha' => ?_, hrest, fun a ha _ _ ha' => ?_⟩
    · exact absurd (List.mem_reverse.1 ha) (not_lineage ha'.2)
    · exact absurd (List.mem_reverse.1 ha) (not_lineage ha'.2)
  · rcases h.lists m hm hm' with hr | hp
    · exact .inl (List.mem_append_left _ hr)
    · rcases List.mem_cons.1 hp with rfl | hp
      · exact .inl (by simp)
      · exact .inr (mem_promote.2 (.inr hp))

/-- At the start, the roots are in turn. -/
theorem inTurn_start (roots : List ClassName) :
    InTurn source (source.calls roots (start roots).resolved) (start roots) := by
  have hr : (start roots).resolved = [] := by rw [start_eq]
  rw [hr, ClassSource.calls, List.flatMap_nil, List.append_nil]
  exact inTurn_nil.foldl_enqueue roots

/-- Each step serves in turn. What is dropped is not there, and what is settled calls for its
    references. -/
theorem Step.inTurn {s t : Stage} (h : Step source roots s t)
    (hs : InTurn source (source.calls roots s.resolved) s) :
    InTurn source (source.calls roots t.resolved) t := by
  cases h with
  | @drop n resolved rest hn hr =>
    refine ⟨fun m hm => hs.mem_calls m (List.mem_cons_of_mem _ hm),
      (List.pairwise_cons.1 hs.pairwise).2, fun m hm hm' => ?_⟩
    refine (hs.lists m hm hm').imp_right fun hp => ?_
    exact (List.mem_cons.1 hp).resolve_left fun he => (he ▸ hm').not_lacks hn
  | @settle n resolved rest lineage referenced c hc hl hr =>
    -- Settling a class adds its references to the calls.
    rw [resolved_settle, ClassSource.calls_append, List.flatMap_singleton,
      ClassSource.referencesOf_eq hc hr]
    exact (hs.promote hc hl).foldl_enqueue referenced

/-- All stages that come after the start serve in turn. -/
theorem Steps.inTurn {s : Stage} (h : Steps source roots (start roots) s) :
    InTurn source (source.calls roots s.resolved) s := by
  induction h with
  | refl => exact inTurn_start roots
  | tail _ ht ih => exact ht.inTurn ih

end Stage

namespace ClassSource

open Sample (app api base helper)

variable {source : ClassSource} {roots out : List ClassName}

/-- A class that leads where it stands in a closure was called for before it was resolved, and before
    any class behind it that leads there. -/
theorem idxOf_calls_lt {before after : List ClassName} {n : ClassName}
    (h : source.closure roots = .ok (before ++ n :: after)) (hn : source.Leads before n) :
    n ∈ source.calls roots before ∧ ∀ m ∈ after, source.Leads before m →
      (source.calls roots (before ++ n :: after)).idxOf n
        < (source.calls roots (before ++ n :: after)).idxOf m := by
  obtain ⟨rest, c, -, -, hs, hc, -⟩ := (steps_of_closure h).exists_settle (by simp [Stage.start])
  have hturn := hs.inTurn
  have hncalls : n ∈ source.calls roots before :=
    hturn.mem_calls n (List.mem_cons_self ..) ⟨⟨c, hc⟩, hn⟩
  refine ⟨hncalls, fun m hm hlead => ?_⟩
  have hm' : source.Has m := has_of_closure h m (by simp [hm])
  rw [calls_append]
  by_cases hmcalls : m ∈ source.calls roots before
  · -- What has been called for and is not resolved is pending behind `n`, in turn.
    have hrest : m ∈ rest := by
      have hnd := List.nodup_append.1 (nodup_closure h)
      rcases hturn.lists m hmcalls hm' with hr | hp
      · exact absurd rfl (hnd.2.2 m hr m (List.mem_cons_of_mem _ hm))
      · exact (List.mem_cons.1 hp).resolve_left fun he => (List.nodup_cons.1 hnd.2.1).1 (he ▸ hm)
    have hlt := (List.pairwise_cons.1 hturn.pairwise).1 m hrest ⟨⟨c, hc⟩, hn⟩ ⟨hm', hlead⟩
    exact Stage.idxOf_append_lt_of_mem hncalls hmcalls hlt
  · exact Stage.idxOf_append_lt hncalls hmcalls

/-- **First come, first served.** The references of all classes of a closure can be read. Among these
    and the roots, the classes of the closure that are no ancestors of any class before them are
    called for, and they stand in the order of their first calls. -/
theorem closure_serves_in_turn (h : source.closure roots = .ok out) :
    (∀ n ∈ out, ∃ c, source.find n = .ok c ∧ c.referenced = .ok (source.referencesOf n))
      ∧ (∀ i (hi : i < out.length), source.Leads (out.take i) out[i] →
        out[i] ∈ source.calls roots out)
      ∧ ∀ i j (hij : i < j) (hj : j < out.length), source.Leads (out.take i) out[i] →
        source.Leads (out.take j) out[j] →
        (source.calls roots out).idxOf out[i] < (source.calls roots out).idxOf out[j] := by
  have hout (i : Nat) (hi : i < out.length) : out = out.take i ++ out[i] :: out.drop (i + 1) := by
    simp
  refine ⟨fun n hn => ?_, fun i hi hi' => ?_, fun i j hij hj hi' hj' => ?_⟩
  · obtain ⟨c, ns, hc, hr, -⟩ := (steps_of_closure h).covers.resolved n hn
    exact ⟨c, hc, referencesOf_eq hc hr ▸ hr⟩
  · -- Calls from before the place are calls of the whole.
    have hcalls : source.calls roots out
        = source.calls roots (out.take i) ++ (out.drop i).flatMap source.referencesOf := by
      rw [← calls_append, List.take_append_drop]
    rw [hcalls]
    exact List.mem_append_left _ (idxOf_calls_lt (hout i hi ▸ h) hi').1
  · -- What leads at its own place leads at the earlier one too.
    have hearly : source.Leads (out.take i) out[j] :=
      hj'.of_subset (List.take_subset_take_left out (by omega))
    have hmem : out[j] ∈ out.drop (i + 1) :=
      List.mem_drop_iff_getElem.2 ⟨j - (i + 1), by omega, by congr 1; omega⟩
    have hlt := (idxOf_calls_lt (hout i (by omega) ▸ h) hi').2 out[j] hmem hearly
    rwa [← hout i (by omega)] at hlt

/-- `Helper`, a root and a reference of `App`, comes behind `App`, since no class is below it. -/
theorem closure_serves_in_turn_app :
    (∀ a ∈ [app, api, base], ¬ TransGen Sample.source.Extends a helper)
      ∧ (Sample.source.calls [app, helper, base] [app, api, base, helper]).idxOf app
        < (Sample.source.calls [app, helper, base] [app, api, base, helper]).idxOf helper := by
  have hextends (a : ClassName) : ¬ Sample.source.Extends a helper := by
    rintro ⟨c, hc, hm, -⟩
    have hfile : ∀ d ∈ [Sample.appFile, Sample.baseFile, Sample.apiFile, Sample.helperFile],
        helper ∉ d.ancestors := by decide
    exact hfile c (mem_of_find_ofFiles hc) hm
  have hhelper : Sample.source.Leads [app, api, base] helper := by
    rintro a - (ha | ⟨-, ha⟩) <;> exact hextends _ ha
  exact ⟨hhelper, (closure_serves_in_turn Sample.closure_app).2.2 0 3 (by decide) (by decide)
    (by simp [Leads]) hhelper⟩

end ClassSource

end PrimaryDex
