import PrimaryDex.Proofs.Closure.Coherence
import PrimaryDex.Proofs.Closure.Termination

namespace PrimaryDex.Pass

open Relation

/-!
# The moments of a pass

What holds whenever a pass can be interrupted, between two turns of its loops.

* `Moment.Arises` — the moments that a pass over some roots goes through. Each comes to what the pass
  comes to (`Arises.result_eq`);
* `Moment.Sound` — the records agree with the lists and with the source, and while an ascent goes on, the
  class that it starts from is resolved;
* `Moment.Arises.sound` — each turn keeps that, so it holds of every moment that arises;
* `exists_turn_of_find` — a pending class that is there is resolved, and its ascent begins;
* `Moment.Arises.popping_of_ascend` — an ascent that ends well leads to where the next class is taken;
* `GoesOn`, `Moment.arises_of_goesOn` — the passes with which `run` calls itself all arise, up to the one
  that it ends with (`goesOn_of_run`).
-/

variable {source : ClassSource} {roots : List ClassName}

namespace Moment

/-- The moments of a pass over some roots: its start, and turn by turn what comes of it. -/
inductive Arises (source : ClassSource) (roots : List ClassName) : Moment source → Prop where
  | start : Arises source roots (.popping (roots.foldl enqueue (Pass.start source)))
  | turn {m : Moment source} (hm : Arises source roots m) :
      Arises source roots (m.turn (.ofList roots))

/-- Whatever arises comes to what the pass comes to. -/
theorem Arises.result_eq {m : Moment source} (hm : Arises source roots m) :
    m.result (.ofList roots) = source.pass roots := by
  induction hm with
  | start => rfl
  | turn _ ih => rw [result_turn, ih]

/-- The records tell the truth, and a class that is ascended from is resolved. -/
def Sound : Moment source → Prop
  | popping p => p.Coherent
  | ascending n _ _ p _ _ => p.Coherent ∧ p.isResolved n = true
  | ended _ => True

/-! ### One turn -/

/-- A turn that takes a pending class keeps the records coherent. -/
theorem sound_turn_popping (roots : Std.HashSet ClassName) {p : Pass source} (hp : p.Coherent) :
    ((popping p).turn roots).Sound := by
  rw [turn]
  cases hpop : p.pop? with
  | none => exact trivial
  | some r =>
    obtain ⟨n, q⟩ := r
    obtain ⟨-, hq, hn, hnp⟩ := pop?_spec hp hpop
    simp only [hn, Bool.false_eq_true, if_false]
    cases hl : q.lookUp n with
    | error failure => exact trivial
    | ok found =>
      obtain ⟨q', _ | ⟨c, hc⟩⟩ := found
      · dsimp only
        split
        · exact trivial
        · exact (lookUp_spec hq hl).2.1
      · -- The class is neither resolved nor pending any more, so it can be resolved.
        obtain ⟨hs, hq', -⟩ := lookUp_spec hq hl
        refine ⟨coherent_resolve hq' (isResolved_of_lookUp hl n ▸ hn) (hs ▸ hnp), ?_⟩
        rw [isResolved_resolve, beq_self_eq_true, Bool.or_true]

/-- A turn on the way up keeps them coherent, and the class it started from resolved. -/
theorem sound_turn_ascending (roots : Std.HashSet ClassName) {n : ClassName} {c : ClassFile}
    (hc : source.find n = .ok c) {p : Pass source} (hp : p.Coherent) (hn : p.isResolved n = true)
    (visited : Std.HashSet ClassName) (stack : List (Visit source)) :
    ((ascending n c hc p visited stack).turn roots).Sound := by
  cases stack with
  | nil =>
    rw [turn]
    cases c.referenced with
    | error fault => exact trivial
    | ok ns => exact (foldl_enqueue_spec hp ns).2
  | cons v rest =>
    cases v with
    | leave m d hd => exact ⟨coherent_keep hp m d hd, hn⟩
    | enter m =>
      rw [turn]
      by_cases hm : p.isResolved m || visited.contains m
      · rw [if_pos hm]
        exact ⟨hp, hn⟩
      · rw [if_neg hm]
        cases hl : p.lookUp m with
        | error failure => exact trivial
        | ok found =>
          obtain ⟨q, found⟩ := found
          -- Whether the ancestor is found or not, nothing that was resolved changes.
          have hq : q.Coherent := (lookUp_spec hp hl).2.1
          have hres := isResolved_of_lookUp hl
          cases found with
          | none => exact ⟨hq, hres n ▸ hn⟩
          | some found =>
            refine ⟨coherent_promote hq (isResolved_eq_false_of_enter hm hl), ?_⟩
            rw [isResolved_promote, hres, hn]

/-- **Invariant.** Each turn leads from a sound moment to a sound one. -/
theorem Sound.turn {m : Moment source} (h : m.Sound) (roots : Std.HashSet ClassName) :
    (m.turn roots).Sound := by
  cases m with
  | popping p => exact sound_turn_popping roots h
  | ascending n c hc p visited stack => exact sound_turn_ascending roots hc h.1 h.2 visited stack
  | ended result => exact trivial

/-! ### All turns -/

/-- **Whatever arises is sound.** -/
theorem Arises.sound {m : Moment source} (hm : Arises source roots m) : m.Sound := by
  induction hm with
  | start => exact (ClassSource.stage_start source roots).2
  | turn _ ih => exact ih.turn _

end Moment

/-- A class that the source has is found. -/
theorem exists_lookUp_eq_some_of_find {p : Pass source} (hp : p.Coherent) {n : ClassName} {c : ClassFile}
    (hc : source.find n = .ok c) : ∃ q, p.lookUp n = .ok (q, some ⟨c, hc⟩) := by
  have same {d : ClassFile} (hd : source.find n = .ok d) : (⟨d, hd⟩ : Found source n) = ⟨c, hc⟩ :=
    Subtype.ext (Except.ok.inj (hd.symm.trans hc))
  cases h : p.lookUp n with
  | error failure =>
    obtain ⟨hf, -⟩ := lookUp_eq_error h
    simp [hc] at hf
  | ok found =>
    obtain ⟨q, _ | ⟨d, hd⟩⟩ := found
    · exact absurd ((lookUp_spec hp h).2.2 rfl) (ClassSource.Has.not_lacks ⟨c, hc⟩)
    · exact ⟨q, by rw [same hd]⟩

/-- **A pending class is resolved.** The turn that takes it begins the ascent from it. -/
theorem exists_turn_of_find (roots : Std.HashSet ClassName) {p : Pass source} (hp : p.Coherent)
    {n : ClassName} {rest : List ClassName} {c : ClassFile} (hn : p.stage.pending = n :: rest)
    (hc : source.find n = .ok c) :
    ∃ q : Pass source, q.stage = ⟨p.stage.resolved ++ [n], rest⟩
      ∧ (Moment.popping p).turn roots = .ascending n c hc q ∅ (c.ancestors.map .enter) := by
  cases hpop : p.pop? with
  | none => simp [stage_of_pop?_eq_none hpop] at hn
  | some r =>
    obtain ⟨m, q⟩ := r
    obtain ⟨hs, hq, hm, -⟩ := pop?_spec hp hpop
    rw [hs, List.cons.injEq] at hn
    obtain ⟨rfl, rfl⟩ := hn
    obtain ⟨q', hl⟩ := exists_lookUp_eq_some_of_find hq hc
    refine ⟨q'.resolve m, ?_, ?_⟩
    · rw [stage_resolve (isResolved_of_lookUp hl m ▸ hm), (lookUp_spec hq hl).1, hs]
    · -- The turn takes the branch of a class that was found.
      simp only [Moment.turn, hpop, hm, hl, Bool.false_eq_true, if_false]

/-- An ascent that ends well is gone through to its end. -/
theorem Moment.Arises.of_ascend {n : ClassName} {c : ClassFile} {hc : source.find n = .ok c}
    {p q : Pass source} {visited : Std.HashSet ClassName} {stack : List (Visit source)}
    (hm : Moment.Arises source roots (.ascending n c hc p visited stack))
    (h : p.ascend visited stack = .ok q) :
    ∃ visited', Moment.Arises source roots (.ascending n c hc q visited' []) := by
  -- By the recursion of the ascent: each of its calls is one turn further.
  fun_induction ascend p visited stack with
  | case1 p visited =>
    rw [Except.ok.injEq] at h
    exact ⟨visited, h ▸ hm⟩
  | case2 p visited m d hd rest ih => exact ih hm.turn h
  | case3 p visited m rest hv ih =>
    have ht := hm.turn
    rw [Moment.turn, if_pos hv] at ht
    exact ih ht h
  | case4 => simp at h
  | case5 p visited m rest hv p' hl ih =>
    have ht := hm.turn
    simp only [Moment.turn, if_neg hv, hl] at ht
    exact ih ht h
  | case6 p visited m rest hv p' d hd hl ih =>
    have ht := hm.turn
    simp only [Moment.turn, if_neg hv, hl] at ht
    exact ih ht h

/-- The references of the class are queued then, and the next pending class is about to be taken. -/
theorem Moment.Arises.popping_of_ascend {n : ClassName} {c : ClassFile} {hc : source.find n = .ok c}
    {p q : Pass source} {visited : Std.HashSet ClassName} {stack : List (Visit source)}
    (hm : Moment.Arises source roots (.ascending n c hc p visited stack))
    (h : p.ascend visited stack = .ok q) {ns : List ClassName} (hr : c.referenced = .ok ns) :
    Moment.Arises source roots (.popping (ns.foldl enqueue q)) := by
  obtain ⟨visited', ht⟩ := hm.of_ascend h
  have ht := ht.turn
  simp only [Moment.turn, hr] at ht
  exact ht

/-! ### The calls of a run -/

/-- With which pass a run goes on: one case for each place where `run` calls itself. -/
inductive GoesOn (roots : Std.HashSet ClassName) (p : Pass source) : Pass source → Prop where
  | resolved {n : ClassName} {q : Pass source} (hp : p.pop? = some (n, q))
      (hr : q.isResolved n = true) : GoesOn roots p q
  | missing {n : ClassName} {q r : Pass source} (hp : p.pop? = some (n, q))
      (hr : ¬ q.isResolved n = true) (hl : q.lookUp n = .ok (r, none))
      (hroot : ¬ roots.contains n = true) : GoesOn roots p r
  | settled {n : ClassName} {c : ClassFile} {hc : source.find n = .ok c} {q r t : Pass source}
      (hp : p.pop? = some (n, q)) (hr : ¬ q.isResolved n = true)
      (hl : q.lookUp n = .ok (r, some ⟨c, hc⟩)) (hs : r.settle n c = .ok t) : GoesOn roots p t

/-- A run goes on, call by call, to the pass that it ends with. -/
theorem goesOn_of_run {roots : Std.HashSet ClassName} {p q : Pass source} (h : p.run roots = .ok q) :
    ReflTransGen (GoesOn roots) p q := by
  fun_induction run roots p with
  | case1 p hp =>
    rw [Except.ok.injEq] at h
    exact h ▸ .refl
  | case2 p n r hp hr ih => exact .head (.resolved hp hr) (ih h)
  | case5 p n r hp hr r' hl hroot ih => exact .head (.missing hp hr hl hroot) (ih h)
  | case7 p n r hp hr r' c hc hl t hs ih => exact .head (.settled hp hr hl hs) (ih h)
  | case3 | case4 | case6 => simp at h

/-- Where a run goes on, some turns lead. -/
theorem Moment.Arises.popping_of_goesOn {p q : Pass source}
    (hm : Moment.Arises source roots (.popping p)) (h : p.GoesOn (.ofList roots) q) :
    Moment.Arises source roots (.popping q) := by
  have ht := hm.turn
  cases h with
  | resolved hp hr =>
    simp only [Moment.turn, hp, hr, if_true] at ht
    exact ht
  | missing hp hr hl hroot =>
    simp only [Moment.turn, hp, if_neg hr, hl, if_neg hroot] at ht
    exact ht
  | @settled n c hc q r t hp hr hl hs =>
    simp only [Moment.turn, hp, if_neg hr, hl] at ht
    unfold settle at hs
    split at hs
    · simp at hs
    · rename_i u hu
      split at hs
      · rename_i ns hns
        -- The turns of the ascent come between.
        exact Except.ok.inj hs ▸ ht.popping_of_ascend hu hns
      · simp at hs

/-- **Each call of a run arises.** The passes with which `run` is called while a closure is computed are
    moments of the pass over its roots, the last one included. -/
theorem Moment.arises_of_goesOn {q : Pass source}
    (h : ReflTransGen (GoesOn (.ofList roots)) (roots.foldl enqueue (start source)) q) :
    Moment.Arises source roots (.popping q) := by
  induction h with
  | refl => exact .start
  | tail _ hgo ih => exact ih.popping_of_goesOn hgo

end PrimaryDex.Pass
