import PrimaryDex.Proofs.Closure.DepthFirst
import PrimaryDex.Proofs.Closure.LookUps
import PrimaryDex.Proofs.Closure.Moments

namespace PrimaryDex.Pass

open Relation

/-!
# What an ascent leaves behind

While an ascent goes on, a class leaves the kept ones when it is entered, and is among them again when
all above it was visited. Only then the records have a simple description.

* `Recorded` — what the records come to, in terms of the stack and of the lineage over it. Each of the
  turns keeps it (`Recorded.leave`, `Recorded.skip`, `Recorded.miss`, `Recorded.enter`);
* `recorded_ascend` — hence an ascent over a stack comes to that;
* `Ascended` — what the ascent from a class does to each part of a pass;
* `Moment.Arises.ascended` — whenever an ascent begins in a pass, and ends well, it has done that to the
  ancestors of the class, in depth-first order.
-/

variable {source : ClassSource} {p q r : Pass source} {n : ClassName}

/-! ### What the operations do to the records -/

/-- Promoting a class leaves what is kept as it is. -/
@[simp] theorem loaded_promote (p : Pass source) (n : ClassName) :
    (p.promote n).loaded = p.loaded := by
  unfold promote
  split <;> rfl

/-- Promoting a class leaves what is missing as it is. -/
@[simp] theorem missing_promote (p : Pass source) (n : ClassName) :
    (p.promote n).missing = p.missing := by
  unfold promote
  split <;> rfl

/-- A class that is looked up is not kept afterwards. -/
theorem getElem?_loaded_of_lookUp {found : Option (Found source n)} (h : p.lookUp n = .ok (q, found))
    (m : ClassName) : q.loaded[m]? = if m = n then none else p.loaded[m]? := by
  have of_none (hl : p.loaded[n]? = none) :
      p.loaded[m]? = if m = n then none else p.loaded[m]? := by
    split
    · rename_i hm
      rw [hm, hl]
    · rfl
  cases lookedUp_of_eq h with
  | kept =>
    show (p.loaded.erase n)[m]? = _
    rw [Std.HashMap.getElem?_erase]
    exact if_congr (beq_iff_eq.trans eq_comm) rfl rfl
  | known hl => exact of_none hl
  | found hl => exact of_none hl
  | notFound hl => exact of_none hl

/-- Where nothing is found, the name is missing afterwards. -/
theorem contains_missing_of_lookUp_eq_none (h : p.lookUp n = .ok (q, none)) (m : ClassName) :
    q.missing.contains m = true ↔ p.missing.contains m = true ∨ m = n := by
  cases lookedUp_of_eq h with
  | known _ hm =>
    refine ⟨.inl, fun h => h.elim id fun he => ?_⟩
    rw [he, hm]
  | notFound =>
    rw [Std.HashSet.contains_insert, Bool.or_eq_true, beq_iff_eq, or_comm, eq_comm (a := m)]

/-- Where a class is found, nothing goes missing. -/
theorem missing_of_lookUp_eq_some {found : Found source n} (h : p.lookUp n = .ok (q, some found)) :
    q.missing = p.missing := by
  cases lookedUp_of_eq h with
  | kept => rfl
  | found => rfl

/-! ### The records, turn by turn -/

/-- What the records come to when the visits of a stack have entered the classes `ns`, and none that is
    `barred`. -/
structure Recorded (barred : ClassName → Bool) (p : Pass source) (stack : List (Visit source))
    (ns : List ClassName) (q : Pass source) : Prop where
  /-- Whatever was entered, by these visits or by earlier ones, is kept at the end. -/
  loaded : ∀ m, q.loaded[m]?
    = if m ∈ ns ∨ m ∈ atHand stack then (source.find m).toOption else p.loaded[m]?
  /-- What was to be entered, or is declared as an ancestor of an entered class, may prove missing. -/
  missing : ∀ m, q.missing.contains m = true ↔ p.missing.contains m = true
    ∨ (source.Lacks m ∧ barred m = false)
      ∧ (m ∈ toEnter stack ∨ ∃ a ∈ ns, ∃ d, source.find a = .ok d ∧ m ∈ d.ancestors)

namespace Recorded

variable {barred : ClassName → Bool} {rest : List (Visit source)} {ns : List ClassName}

/-- Without visits, nothing changes. -/
theorem nil (barred : ClassName → Bool) (p : Pass source) : Recorded barred p [] [] p :=
  ⟨fun m => by simp [atHand], fun m => by simp⟩

/-- A class that is left is kept from then on. -/
theorem leave {c : ClassFile} {hc : source.find n = .ok c}
    (h : Recorded barred (p.keep n c hc) rest ns q) :
    Recorded barred p (.leave n c hc :: rest) ns q where
  loaded m := by
    have hkeep : (p.keep n c hc).loaded[m]? = if n = m then some c else p.loaded[m]? := by
      simp only [keep, Std.HashMap.getElem?_insert, beq_iff_eq]
    simp only [h.loaded, hkeep, atHand_leave, List.mem_cons]
    by_cases hm : m = n
    · -- The class that is left is kept, as every class at hand is in the end.
      subst hm
      simp [hc, Except.toOption]
    · simp only [hm, Ne.symm hm, false_or, if_false]
  missing := h.missing

/-- A class that is barred changes nothing. -/
theorem skip (hn : barred n = true) (h : Recorded barred p rest ns q) :
    Recorded barred p (.enter n :: rest) ns q where
  loaded := h.loaded
  missing m := by
    have hm : barred m = false → m ≠ n := fun hm he => by simp [← he, hm] at hn
    rw [h.missing, toEnter_enter, List.mem_cons]
    -- The barred class is none of those that may go missing.
    grind

/-- A class that is not there goes missing, and is entered by no later visit. -/
theorem miss (hn : barred n = false) (hl : source.Lacks n) (hr : p.lookUp n = .ok (r, none))
    (h : Recorded (fun m => barred m || m == n) r rest ns q) :
    Recorded barred p (.enter n :: rest) ns q where
  loaded m := by
    rw [h.loaded, getElem?_loaded_of_lookUp hr, atHand_enter]
    by_cases hm : m = n
    · -- It was not kept before either, since it could not be found.
      subst hm
      have hp : p.loaded[m]? = none := by
        cases hc : p.loaded[m]? with
        | none => rfl
        | some c => exact absurd hl (ClassSource.Has.not_lacks ⟨c, p.find_of_loaded hc⟩)
      obtain ⟨k, hk⟩ := hl
      simp [hk, hp, Except.toOption]
    · rw [if_neg hm]
  missing m := by
    rw [h.missing, contains_missing_of_lookUp_eq_none hr, toEnter_enter, List.mem_cons]
    by_cases hm : m = n
    · subst hm
      simp [hl, hn]
    · simp [hm]

/-- A class that is found is at hand until it is left, behind the visits to its ancestors. -/
theorem enter {c : ClassFile} {hc : source.find n = .ok c} (hn : barred n = false)
    (hr : p.lookUp n = .ok (r, some ⟨c, hc⟩))
    (h : Recorded (fun m => barred m || m == n) (r.promote n)
      (c.ancestors.map .enter ++ .leave n c hc :: rest) ns q) :
    Recorded barred p (.enter n :: rest) (n :: ns) q where
  loaded m := by
    -- From now on `n` is at hand, so that it does not matter whether it was kept before.
    simp only [h.loaded, loaded_promote, getElem?_loaded_of_lookUp hr, atHand_map_append,
      atHand_leave, atHand_enter, List.mem_cons]
    by_cases hm : m = n
    · simp only [hm, true_or, or_true, if_true]
    · simp only [hm, false_or, if_false]
  missing m := by
    rw [h.missing, missing_promote, missing_of_lookUp_eq_some hr, toEnter_map_append, toEnter_leave,
      toEnter_enter, List.mem_append, List.mem_cons]
    -- The class itself is there, so it does not go missing.
    by_cases hm : m = n
    · subst hm
      simp [ClassSource.Has.not_lacks ⟨c, hc⟩]
    · simp [hm, hc, or_assoc, or_left_comm]

end Recorded

/-- **The records after an ascent.** The induction goes along its turns, and the lineage over the stack
    along with it. -/
theorem recorded_ascend {visited : Std.HashSet ClassName} {stack : List (Visit source)}
    {ns : List ClassName} (hp : p.Coherent) (h : p.ascend visited stack = .ok q)
    (hns : source.lineage (fun m => p.isResolved m || visited.contains m) (toEnter stack) = .ok ns) :
    Recorded (fun m => p.isResolved m || visited.contains m) p stack ns q := by
  -- By the recursion of the ascent, beside which the lineage is computed name by name.
  fun_induction ascend p visited stack generalizing ns with
  | case1 p =>
    rw [toEnter_nil, ClassSource.lineage_nil, Except.ok.injEq] at hns
    rw [Except.ok.injEq] at h
    exact hns ▸ h ▸ .nil _ p
  | case2 p visited n c hc rest ih => exact (ih (coherent_keep hp n c hc) h hns).leave
  | case3 p visited n rest hn ih =>
    rw [toEnter_enter, ClassSource.lineage_cons_of_barred hn] at hns
    exact (ih hp h hns).skip hn
  | case4 => simp at h
  | case5 p visited n rest hn q' hl ih =>
    rw [Bool.not_eq_true] at hn
    obtain ⟨-, hq, hm⟩ := lookUp_spec hp hl
    rw [toEnter_enter, ClassSource.lineage_cons_of_lacks hn (hm rfl)] at hns
    simp only [isResolved_or_contains_insert, isResolved_of_lookUp hl] at ih
    exact (ih hq h hns).miss hn (hm rfl) hl
  | case6 p visited n rest hn q' c hc hl ih =>
    have hr := isResolved_eq_false_of_enter hn hl
    rw [Bool.not_eq_true] at hn
    obtain ⟨-, hq, -⟩ := lookUp_spec hp hl
    rw [toEnter_enter, ClassSource.lineage_cons_of_find hn hc] at hns
    obtain ⟨ns', hns', rfl⟩ := map_eq_ok hns
    simp only [isResolved_or_contains_insert, isResolved_promote, isResolved_of_lookUp hl,
      toEnter_map_append, toEnter_leave] at ih
    exact (ih (coherent_promote hq hr) h hns').enter hn hl

/-! ### The ascent from a class -/

/-- What the ascent from a class `n` has done to a pass when it entered the classes of an `order`. -/
structure Ascended (p : Pass source) (n : ClassName) (order : List ClassName) (q : Pass source) :
    Prop where
  /-- The classes are pending in front of all others, the last one first. The others keep their
      order. -/
  pending : q.pending.toList = order.reverse ++ p.pending.toList.filter (· ∉ order)
  resolved : q.resolved = p.resolved
  isResolved : q.isResolved = p.isResolved
  /-- The classes are kept with their files. -/
  loaded_of_mem : ∀ m ∈ order, ∃ d, source.find m = .ok d ∧ q.loaded[m]? = some d
  loaded_of_not_mem : ∀ m, m ∉ order → q.loaded[m]? = p.loaded[m]?
  /-- What has gone missing are the ancestors that `n` or one of the classes declares and that the source
      lacks. -/
  missing : ∀ m, q.missing.contains m = true ↔ p.missing.contains m = true
    ∨ (source.Lacks m ∧ p.isResolved m = false)
      ∧ ∃ a ∈ n :: order, ∃ d, source.find a = .ok d ∧ m ∈ d.ancestors

/-- At the start of an ascent nothing is visited, so that only resolved classes are barred. -/
theorem isResolved_or_contains_empty (p : Pass source) :
    (fun m => p.isResolved m || (∅ : Std.HashSet ClassName).contains m) = p.isResolved := by
  funext m
  rw [Std.HashSet.contains_empty, Bool.or_false]

/-- An ascent from a class ends well only over a lineage, and does this to its classes. -/
theorem exists_ascended {c : ClassFile} (hp : p.Coherent) (hc : source.find n = .ok c)
    (h : p.ascend ∅ (c.ancestors.map .enter) = .ok q) :
    ∃ order, source.lineage p.isResolved c.ancestors = .ok order ∧ p.Ascended n order q := by
  obtain ⟨ns, hns, hs, -⟩ := ascend_spec hp h
  have hrec := recorded_ascend hp h hns
  rw [isResolved_or_contains_empty] at hns hrec
  rw [toEnter_map] at hns
  refine ⟨ns, hns, ?_, ?_, funext (isResolved_ascend h), ?_, ?_, ?_⟩
  · exact congrArg Stage.pending hs
  · exact Array.toList_inj.1 (congrArg Stage.resolved hs)
  · intro m hm
    obtain ⟨d, hd⟩ := (ClassSource.free_of_mem_lineage hns m hm).1
    refine ⟨d, hd, ?_⟩
    rw [hrec.loaded, if_pos (.inl hm), hd]
    rfl
  · intro m hm
    simp only [hrec.loaded, hm, atHand_map, List.not_mem_nil, or_self, if_false]
  · intro m
    -- What stands on the stack at the start is declared by `n` itself.
    have hstack : m ∈ toEnter (c.ancestors.map .enter : List (Visit source))
        ↔ ∃ d, source.find n = .ok d ∧ m ∈ d.ancestors := by
      rw [toEnter_map]
      simp [hc]
    rw [hrec.missing, hstack, List.exists_mem_cons_iff]

/-- **What an ascent does.** Whenever a class was resolved in a pass and the ascent from it ends well, one
    row of classes is in depth-first order above it: each ancestor that is reached without a step to a
    resolved class, once. These come to be pending in front of all others, the last one first, and are
    kept. What is declared among them and is not there goes missing, and nothing else has changed. -/
theorem Moment.Arises.ascended {roots : List ClassName} {c : ClassFile} {hc : source.find n = .ok c}
    (hm : Moment.Arises source roots (.ascending n c hc p ∅ (c.ancestors.map .enter)))
    (h : p.ascend ∅ (c.ancestors.map .enter) = .ok q) :
    ∃ order, (∀ row, source.DepthFirst p.isResolved [] c.ancestors row ↔ row = order)
      ∧ order.Nodup
      ∧ (∀ m, m ∈ order
        ↔ TransGen (fun a b => source.Extends a b ∧ p.isResolved b = false) n m)
      ∧ p.Ascended n order q := by
  obtain ⟨hp, -⟩ := hm.sound
  obtain ⟨order, horder, hq⟩ := exists_ascended hp hc h
  refine ⟨order, fun row => ?_, ?_, fun m => ?_, hq⟩
  · exact ClassSource.depthFirst_iff_of_lineage horder
  · exact ClassSource.nodup_lineage horder
  · exact ClassSource.mem_lineage_iff hc horder

open Sample (app api base helper) in
/-- When `App` was resolved, first `Base` and then `Api` come to stand in front of `Helper`. `Base` was
    pending behind it, as a root. -/
theorem ascended_app : ∃ p q : Pass Sample.source,
    Moment.Arises Sample.source [app, helper, base]
      (.ascending app Sample.appFile rfl p ∅ (Sample.appFile.ancestors.map .enter))
    ∧ p.ascend ∅ (Sample.appFile.ancestors.map .enter) = .ok q
    ∧ p.pending.toList = [helper, base] ∧ q.pending.toList = [api, base, helper]
    ∧ p.Ascended app [base, api] q := by
  obtain ⟨hs, hstart⟩ := ClassSource.stage_start Sample.source [app, helper, base]
  have hstart' : Stage.start [app, helper, base] = ⟨[], [app, helper, base]⟩ := by decide
  rw [hstart'] at hs
  obtain ⟨p, hstage, hturn⟩ :=
    exists_turn_of_find (.ofList [app, helper, base]) hstart (congrArg Stage.pending hs)
      (show Sample.source.find app = .ok Sample.appFile from rfl)
  rw [hs] at hstage
  have hm : Moment.Arises Sample.source [app, helper, base]
      (.ascending app Sample.appFile rfl p ∅ (Sample.appFile.ancestors.map .enter)) :=
    hturn ▸ .turn .start
  obtain ⟨hp, -⟩ := hm.sound
  have hpend : p.pending.toList = [helper, base] := congrArg Stage.pending hstage
  have hbarred : p.isResolved = [app].contains := by
    funext m
    rw [Bool.eq_iff_iff, hp.isResolved_iff, hstage, List.contains_iff_mem]
    rfl
  -- The lineage of `App` is known, so that the ascent cannot fail and has no other order.
  have hlineage : Sample.source.lineage p.isResolved Sample.appFile.ancestors = .ok [base, api] :=
    hbarred ▸ Sample.lineage_app
  cases hq : p.ascend ∅ (Sample.appFile.ancestors.map .enter) with
  | error failure =>
    have hf := ascend_eq_error hp hq
    rw [isResolved_or_contains_empty, toEnter_map, hlineage] at hf
    cases hf
  | ok q =>
    obtain ⟨order, horder, -, -, hasc⟩ := Moment.Arises.ascended hm hq
    obtain rfl : [base, api] = order :=
      (horder _).1 ((ClassSource.depthFirst_iff_of_lineage hlineage).2 rfl)
    refine ⟨p, q, hm, hq, hpend, ?_, hasc⟩
    rw [hasc.pending, hpend]
    decide

end PrimaryDex.Pass
