import PrimaryDex.Proofs.Closure.Climbs

namespace PrimaryDex.Pass

/-!
# A pass at rest

When the next pending class is about to be taken, the records of a pass say the same as its lists, and
only what is pending is kept. On the way up from a class they do not: a class that was entered stands
among the pending ones and is not kept until all above it was visited.

* `Holds` — what is true all the time: no root is lost, and whatever is kept, or at hand on the way up, is
  pending. Each operation of a pass keeps it;
* `Moment.Holds.turn` — so does each turn, and hence it is true of every moment that arises
  (`Moment.Arises.holds`);
* `AtRest` — what that comes to when nothing is at hand;
* `Moment.Arises.atRest` — a pass is at rest whenever its next class is taken.
-/

variable {source : ClassSource} {roots hand : List ClassName} {p q r : Pass source} {n : ClassName}

/-- No root is lost, and what is kept or at hand is pending. -/
structure Holds (roots hand : List ClassName) (p : Pass source) : Prop where
  lists_roots : ∀ m ∈ roots, p.stage.Lists m
  pending_of_loaded : ∀ m ∈ p.loaded, m ∈ p.stage.pending
  pending_of_hand : ∀ m ∈ hand, m ∈ p.stage.pending

/-! ### What is kept -/

/-- Resolving a class leaves what is kept as it is. -/
@[simp] theorem loaded_resolve (p : Pass source) (n : ClassName) :
    (p.resolve n).loaded = p.loaded := by
  unfold resolve
  split <;> rfl

/-- Enqueuing a class leaves what is kept as it is. -/
@[simp] theorem loaded_enqueue (p : Pass source) (n : ClassName) :
    (p.enqueue n).loaded = p.loaded := by
  unfold enqueue
  split <;> rfl

/-- Enqueuing many classes leaves what is kept as it is. -/
theorem loaded_foldl_enqueue (p : Pass source) (ns : List ClassName) :
    (ns.foldl enqueue p).loaded = p.loaded := by
  induction ns generalizing p with
  | nil => rfl
  | cons n ns ih => rw [List.foldl_cons, ih, loaded_enqueue]

/-- Taking the first pending class leaves what is kept as it is. -/
theorem loaded_of_pop? (h : p.pop? = some (n, q)) : q.loaded = p.loaded := by
  unfold pop? at h
  split at h
  · simp at h
  · simp only [Option.some.injEq, Prod.mk.injEq] at h
    rw [← h.2]

/-- What is kept after a look-up was kept before, and is not what was looked up. -/
theorem mem_loaded_of_lookUp {found : Option (Found source n)} (h : p.lookUp n = .ok (q, found))
    {m : ClassName} (hm : m ∈ q.loaded) : m ≠ n ∧ m ∈ p.loaded := by
  rw [Std.HashMap.mem_iff_isSome_getElem?, getElem?_loaded_of_lookUp h] at hm
  -- What was looked up is not kept, whether it was before or not.
  split at hm
  · simp at hm
  · rename_i hne
    exact ⟨hne, Std.HashMap.mem_iff_isSome_getElem?.2 hm⟩

/-! ### The operations -/

namespace Holds

/-- It stays true where the lists grow and nothing more is kept. -/
theorem mono (h : p.Holds roots hand) (hr : p.stage.resolved ⊆ q.stage.resolved)
    (hp : p.stage.pending ⊆ q.stage.pending) (hl : ∀ m ∈ q.loaded, m ∈ p.loaded) :
    q.Holds roots hand where
  lists_roots m hm := (h.lists_roots m hm).imp (@hr m) (@hp m)
  pending_of_loaded m hm := hp (h.pending_of_loaded m (hl m hm))
  pending_of_hand m hm := hp (h.pending_of_hand m hm)

/-- Enqueuing classes adds to the pending ones only. -/
theorem foldl_enqueue (hp : p.Coherent) (h : p.Holds roots hand) (ns : List ClassName) :
    (ns.foldl Pass.enqueue p).Holds roots hand := by
  obtain ⟨hs, -⟩ := foldl_enqueue_spec hp ns
  refine h.mono ?_ ?_ ?_
  · rw [hs, Stage.resolved_foldl_enqueue]
    exact List.Subset.refl _
  · rw [hs]
    exact fun m hm => Stage.mem_foldl_enqueue.2 (.inl hm)
  · rw [loaded_foldl_enqueue]
    exact fun _ hm => hm

/-- A class that is found is promoted, so that it is pending from then on. -/
theorem promote (hp : p.Coherent) (h : p.Holds roots hand) (n : ClassName) :
    (p.promote n).Holds roots (n :: hand) := by
  have hs := stage_promote hp n
  have hold : (p.promote n).Holds roots hand := by
    refine h.mono ?_ ?_ ?_
    · rw [hs, Stage.resolved_promote]
      exact List.Subset.refl _
    · rw [hs]
      exact fun m hm => Stage.mem_promote.2 (.inr hm)
    · rw [loaded_promote]
      exact fun _ hm => hm
  refine { hold with pending_of_hand := List.forall_mem_cons.2 ⟨?_, hold.pending_of_hand⟩ }
  rw [hs, Stage.mem_promote]
  exact .inl (List.mem_singleton_self n)

/-- A class at hand is kept where it is pending already. -/
theorem keep {c : ClassFile} (h : p.Holds roots (n :: hand)) (hc : source.find n = .ok c) :
    (p.keep n c hc).Holds roots hand where
  lists_roots := h.lists_roots
  pending_of_loaded m hm := by
    rcases Std.HashMap.mem_insert.1 hm with he | hm
    · exact h.pending_of_hand m (eq_of_beq he ▸ List.mem_cons_self ..)
    · exact h.pending_of_loaded m hm
  pending_of_hand m hm := h.pending_of_hand m (List.mem_cons_of_mem _ hm)

/-- On the way up, a look-up keeps less at most, and moves nothing. -/
theorem lookUp (hp : p.Coherent) (h : p.Holds roots hand) {found : Option (Found source n)}
    (hl : p.lookUp n = .ok (q, found)) : q.Holds roots hand := by
  obtain ⟨hs, -⟩ := lookUp_spec hp hl
  refine h.mono ?_ ?_ fun m hm => (mem_loaded_of_lookUp hl hm).2
  · rw [hs]
    exact List.Subset.refl _
  · rw [hs]
    exact List.Subset.refl _

/-- The class that is taken is not pending any more, and once it is looked up it is not kept either. No
    other root is lost. -/
theorem take (hp : p.Coherent) (h : p.Holds roots []) (hpop : p.pop? = some (n, q))
    {found : Option (Found source n)} (hl : q.lookUp n = .ok (r, found)) :
    (∀ m ∈ roots, m = n ∨ r.stage.Lists m) ∧ ∀ m ∈ r.loaded, m ∈ r.stage.pending := by
  obtain ⟨hs, hq, -⟩ := pop?_spec hp hpop
  obtain ⟨hr, -⟩ := lookUp_spec hq hl
  have htaken {m : ClassName} (hm : m ∈ p.stage.pending) : m = n ∨ m ∈ r.stage.pending := by
    rw [hs] at hm
    exact hr ▸ List.mem_cons.1 hm
  refine ⟨fun m hm => ?_, fun m hm => ?_⟩
  · rcases h.lists_roots m hm with hm | hm
    · rw [hs] at hm
      exact .inr (.inl (hr ▸ hm))
    · exact (htaken hm).imp_right .inr
  · -- The class that is taken may have been kept until now, but the look-up has released it.
    obtain ⟨hne, hm⟩ := mem_loaded_of_lookUp hl hm
    rw [loaded_of_pop? hpop] at hm
    exact (htaken (h.pending_of_loaded m hm)).resolve_left hne

/-- A class that is missing can be dropped if it is not a root. -/
theorem drop (hp : p.Coherent) (h : p.Holds roots []) (hpop : p.pop? = some (n, q))
    (hl : q.lookUp n = .ok (r, none)) (hn : n ∉ roots) : r.Holds roots [] := by
  obtain ⟨hlists, hloaded⟩ := h.take hp hpop hl
  refine ⟨fun m hm => ?_, hloaded, by simp⟩
  exact (hlists m hm).resolve_left fun he => hn (he ▸ hm)

/-- A class that is found is resolved, be it a root or not. -/
theorem resolve (hp : p.Coherent) (h : p.Holds roots []) (hpop : p.pop? = some (n, q))
    {found : Found source n} (hl : q.lookUp n = .ok (r, some found)) :
    (r.resolve n).Holds roots [] := by
  obtain ⟨hlists, hloaded⟩ := h.take hp hpop hl
  obtain ⟨-, -, hn, -⟩ := pop?_spec hp hpop
  have hs : (r.resolve n).stage = ⟨r.stage.resolved ++ [n], r.stage.pending⟩ :=
    stage_resolve (isResolved_of_lookUp hl n ▸ hn)
  refine ⟨fun m hm => ?_, fun m hm => ?_, by simp⟩
  · rw [hs]
    -- The class itself may be a root, and it is resolved now.
    rcases hlists m hm with rfl | hm | hm
    · exact .inl (by simp)
    · exact .inl (List.mem_append_left _ hm)
    · exact .inr hm
  · rw [loaded_resolve] at hm
    rw [hs]
    exact hloaded m hm

end Holds

/-! ### The turns -/

namespace Moment

/-- It holds of a moment with what is at hand then. -/
def Holds (roots : List ClassName) : Moment source → Prop
  | popping p => p.Holds roots []
  | ascending _ _ _ p _ stack => p.Holds roots (atHand stack)
  | ended _ => True

/-- A turn that takes a pending class drops it or resolves it. -/
theorem holds_turn_popping (hp : p.Coherent) (h : p.Holds roots []) :
    ((popping p).turn (.ofList roots)).Holds roots := by
  rw [turn]
  cases hpop : p.pop? with
  | none => exact trivial
  | some taken =>
    obtain ⟨n, q⟩ := taken
    obtain ⟨-, -, hn, -⟩ := pop?_spec hp hpop
    simp only [hn, Bool.false_eq_true, if_false]
    cases hl : q.lookUp n with
    | error failure => exact trivial
    | ok found =>
      obtain ⟨r, _ | ⟨c, hc⟩⟩ := found
      · dsimp only
        split
        · exact trivial
        · rename_i hroot
          exact h.drop hp hpop hl (by simpa using hroot)
      · show ((r.resolve n).Holds roots (atHand (c.ancestors.map .enter)))
        rw [atHand_map]
        exact h.resolve hp hpop hl

/-- A turn on the way up enters a class, leaves one, or ends the ascent. -/
theorem holds_turn_ascending {c : ClassFile} (hc : source.find n = .ok c) (hp : p.Coherent)
    (visited : Std.HashSet ClassName) {stack : List (Visit source)}
    (h : p.Holds roots (atHand stack)) :
    ((ascending n c hc p visited stack).turn (.ofList roots)).Holds roots := by
  cases stack with
  | nil =>
    rw [turn]
    cases c.referenced with
    | error fault => exact trivial
    | ok ns => exact h.foldl_enqueue hp ns
  | cons v rest =>
    cases v with
    | leave m d hd => exact h.keep hd
    | enter m =>
      rw [turn]
      by_cases hm : p.isResolved m || visited.contains m
      · rw [if_pos hm]
        exact h
      · rw [if_neg hm]
        cases hl : p.lookUp m with
        | error failure => exact trivial
        | ok found =>
          obtain ⟨q, _ | ⟨d, hd⟩⟩ := found
          · exact h.lookUp hp hl
          · -- The class is at hand until its own ancestors have had their turns.
            show (q.promote m).Holds roots (atHand (d.ancestors.map .enter ++ .leave m d hd :: rest))
            rw [atHand_map_append, atHand_leave]
            exact (h.lookUp hp hl).promote (lookUp_spec hp hl).2.1 m

/-- **Invariant.** Each turn from a sound moment keeps it. -/
theorem Holds.turn {m : Moment source} (h : m.Holds roots) (hm : m.Sound) :
    (m.turn (.ofList roots)).Holds roots := by
  cases m with
  | popping p => exact holds_turn_popping hm h
  | ascending n c hc p visited stack => exact holds_turn_ascending hc hm.1 visited h
  | ended result => exact trivial

/-- At the start all roots are pending, and nothing is kept. -/
theorem holds_start (source : ClassSource) (roots : List ClassName) :
    (roots.foldl enqueue (Pass.start source)).Holds roots [] := by
  obtain ⟨hs, -⟩ := ClassSource.stage_start source roots
  refine ⟨fun m hm => hs ▸ Stage.lists_start hm, fun m hm => ?_, by simp⟩
  rw [loaded_foldl_enqueue] at hm
  exact absurd hm Std.HashMap.not_mem_empty

/-- **It holds of whatever arises.** -/
theorem Arises.holds {m : Moment source} (hm : Arises source roots m) : m.Holds roots := by
  induction hm with
  | start => exact holds_start source roots
  | turn hm ih => exact ih.turn hm.sound

end Moment

/-! ### Between two turns of the main loop -/

/-- The state of a pass over some roots when its next pending class is about to be taken. -/
structure AtRest (roots : List ClassName) (p : Pass source) : Prop where
  nodup_pending : p.pending.toList.Nodup
  mem_queued_iff : ∀ n, n ∈ p.queued ↔ n ∈ p.pending.toList
  nodup_resolved : p.resolved.toList.Nodup
  mem_resolvedSet_iff : ∀ n, n ∈ p.resolvedSet ↔ n ∈ p.resolved.toList
  not_resolved : ∀ n ∈ p.pending.toList, n ∉ p.resolved.toList
  /-- So the class that is taken is never passed over as one that is resolved. -/
  isResolved_of_pop? : ∀ n q, p.pop? = some (n, q) → q.isResolved n = false
  listed : ∀ n ∈ roots, n ∈ p.pending.toList ∨ n ∈ p.resolved.toList
  /-- What is kept is pending, with the file that the source has for it. -/
  loaded : ∀ n c, p.loaded[n]? = some c → n ∈ p.pending.toList ∧ source.find n = .ok c
  missing : ∀ n ∈ p.missing, source.Lacks n

/-- With nothing at hand, coherent records are at rest. -/
theorem AtRest.of_holds (hp : p.Coherent) (h : p.Holds roots []) : p.AtRest roots where
  nodup_pending := hp.tidy.nodup_pending
  mem_queued_iff := hp.queued_iff
  nodup_resolved := hp.tidy.nodup_resolved
  mem_resolvedSet_iff := hp.isResolved_iff
  not_resolved := hp.tidy.not_resolved
  isResolved_of_pop? _ _ hpop := (pop?_spec hp hpop).2.2.1
  -- The order of the two is the other way round here.
  listed n hn := (h.lists_roots n hn).symm
  loaded n c hc := by
    refine ⟨h.pending_of_loaded n ?_, p.find_of_loaded hc⟩
    rw [Std.HashMap.mem_iff_isSome_getElem?, hc]
    rfl
  missing := hp.lacks_of_missing

/-- **A pass rests between two turns.** Each time the next pending class is about to be taken, the pass
    is at rest, and what is left of it is the run from there. -/
theorem Moment.Arises.atRest (hm : Moment.Arises source roots (.popping p)) :
    p.AtRest roots ∧ p.run (.ofList roots) = source.pass roots :=
  ⟨.of_holds hm.sound hm.holds, hm.result_eq⟩

open Sample (app api base helper object) in
/-- When `App` was settled, its ancestors are pending in front of `Helper` and kept, and what they all
    extend is missing. -/
theorem atRest_app : ∃ p : Pass Sample.source,
    Moment.Arises Sample.source [app] (.popping p)
    ∧ p.pending.toList = [api, base, helper]
    ∧ p.loaded[base]? = some Sample.baseFile ∧ object ∈ p.missing
    ∧ p.AtRest [app] ∧ p.run (.ofList [app]) = Sample.source.pass [app] := by
  have hc : Sample.source.find app = .ok Sample.appFile := rfl
  obtain ⟨p, q, hm, hq, hbarred, hpend⟩ := exists_ascent_of_root hc Sample.lineage_app
  have hnext := hm.popping_of_ascend hq Sample.referenced_app
  obtain ⟨order, horder, hasc⟩ := exists_ascended hm.sound.1 hc hq
  obtain rfl : [base, api] = order :=
    Except.ok.inj (Sample.lineage_app.symm.trans (hbarred ▸ horder))
  obtain ⟨-, -, -, hcoh⟩ := ascend_spec hm.sound.1 hq
  -- `Helper` is neither resolved nor pending yet, so that it goes to the back.
  have hres : q.isResolved helper = false := by
    rw [hasc.isResolved, hbarred]
    decide
  have hqueued : q.queued.contains helper = false := by
    rw [← Bool.not_eq_true, hcoh.queued_iff]
    show helper ∉ q.pending.toList
    rw [hpend]
    decide
  refine ⟨_, hnext, ?_, ?_, ?_, hnext.atRest⟩
  · show (q.enqueue helper).pending.toList = [api, base, helper]
    rw [pending_enqueue, hpend, hres, hqueued]
    rfl
  · obtain ⟨d, hd, hkept⟩ := hasc.loaded_of_mem base (by decide)
    obtain rfl : Sample.baseFile = d := Except.ok.inj hd
    rw [loaded_foldl_enqueue, hkept]
  · have hmissing : q.missing.contains object = true :=
      (hasc.missing object).2 (.inr ⟨⟨Sample.lacks_object, by rw [hbarred]; decide⟩,
        base, by decide, Sample.baseFile, rfl, by decide⟩)
    show object ∈ (q.enqueue helper).missing
    unfold enqueue
    split <;> exact hmissing

end PrimaryDex.Pass
