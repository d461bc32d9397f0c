import Mathlib.Logic.Relation
import PrimaryDex.Closure.Remaining
import PrimaryDex.Closure.Source
import PrimaryDex.Proofs.Outcomes

namespace PrimaryDex.ClassSource

open Relation

/-!
# Lineages

The hierarchy above a class, read off the source alone, without the records that a pass keeps.

* `Has`, `Lacks` — the source has a class, or is without it; any third answer is a fault;
* `Extends` — one step up the hierarchy, between two classes that the source has;
* `lineage` — the ancestors in the order of a depth-first walk that enters no `barred` class;
* `mem_lineage_iff` — a lineage holds exactly what steps up outside the barred classes reach;
* `exists_of_lineage_eq_error` — a walk fails only at a class that it reaches.
-/

variable {source : ClassSource}

/-- The source has the class. -/
def Has (source : ClassSource) (n : ClassName) : Prop := ∃ c, source.find n = .ok c

/-- The source is without the class, which is then taken for the platform's. -/
def Lacks (source : ClassSource) (n : ClassName) : Prop :=
  ∃ m, source.find n = .error (.classNotFound m)

instance (source : ClassSource) : DecidablePred source.Has := fun n =>
  match h : source.find n with
  | .ok c => isTrue ⟨c, h⟩
  | .error _ => isFalse fun ⟨_, hc⟩ => by simp [h] at hc

/-- A source does not both have a class and lack it. -/
theorem Has.not_lacks {n : ClassName} (h : source.Has n) : ¬ source.Lacks n := by
  obtain ⟨c, hc⟩ := h
  rintro ⟨m, hm⟩
  simp [hc] at hm

/-- `b` is an ancestor that the class file of `a` declares, and the source has both. -/
def Extends (source : ClassSource) (a b : ClassName) : Prop :=
  ∃ c, source.find a = .ok c ∧ b ∈ c.ancestors ∧ source.Has b

/-! ### The walk -/

/-- The classes of `stack` and their ancestors, as far as the source has them, each where a
    depth-first walk first enters it. A `barred` class is not entered. -/
def lineage (source : ClassSource) (barred : ClassName → Bool) (stack : List ClassName) :
    Except Fault (List ClassName) :=
  match stack with
  | [] => .ok []
  | n :: rest =>
    if _hb : barred n then lineage source barred rest
    else match _hf : source.find n with
      | .ok c => (n :: ·) <$> lineage source (fun m => barred m || m == n) (c.ancestors ++ rest)
      | .error (.classNotFound _) => lineage source (fun m => barred m || m == n) rest
      | .error fault => .error fault
termination_by (remaining source.names barred stack, stack.length)
decreasing_by
  · exact lex_remaining_tail _ _ _ _ (by simp)
  · refine Prod.Lex.left _ _ (remaining_lt (by simpa using _hb) (fun _ => rfl) ?_)
    rw [outside_append, outside_of_subset (ancestors_subset_names _hf), List.nil_append]
  · exact Prod.Lex.left _ _ (remaining_lt (by simpa using _hb) (fun _ => rfl) rfl)

/-- Without a stack there is no lineage. -/
@[simp] theorem lineage_nil (barred : ClassName → Bool) : source.lineage barred [] = .ok [] := by
  rw [lineage]

/-- A walk passes over a barred class. -/
theorem lineage_cons_of_barred {barred : ClassName → Bool} {n : ClassName} {rest : List ClassName}
    (hb : barred n = true) : source.lineage barred (n :: rest) = source.lineage barred rest := by
  rw [lineage, dif_pos hb]

/-- A class that is there is entered, and its ancestors come before the rest. -/
theorem lineage_cons_of_find {barred : ClassName → Bool} {n : ClassName} {rest : List ClassName}
    {c : ClassFile} (hb : barred n = false) (hc : source.find n = .ok c) :
    source.lineage barred (n :: rest)
      = (n :: ·) <$> source.lineage (fun m => barred m || m == n) (c.ancestors ++ rest) := by
  rw [lineage, dif_neg (by simp [hb])]
  split <;> simp_all

/-- A class that the source lacks leads no further. -/
theorem lineage_cons_of_lacks {barred : ClassName → Bool} {n : ClassName} {rest : List ClassName}
    (hb : barred n = false) (hn : source.Lacks n) :
    source.lineage barred (n :: rest) = source.lineage (fun m => barred m || m == n) rest := by
  obtain ⟨m, hm⟩ := hn
  rw [lineage, dif_neg (by simp [hb])]
  split <;> simp_all

theorem lineage_cons_of_error {barred : ClassName → Bool} {n : ClassName} {rest : List ClassName}
    {fault : Fault} (hb : barred n = false) (hf : source.find n = .error fault)
    (hl : ∀ m, fault ≠ .classNotFound m) :
    source.lineage barred (n :: rest) = .error fault := by
  rw [lineage, dif_neg (by simp [hb])]
  split
  · simp_all
  · rename_i m hm
    rw [hf, Except.error.injEq] at hm
    exact absurd hm (hl m)
  · simp_all

/-! ### What a walk finds -/

/-- The classes of a lineage are there and are not barred. -/
theorem free_of_mem_lineage {barred : ClassName → Bool} {stack ns : List ClassName}
    (h : source.lineage barred stack = .ok ns) :
    ∀ n ∈ ns, source.Has n ∧ barred n = false := by
  -- Behind each class that is entered, more is barred than before.
  fun_induction lineage source barred stack generalizing ns with
  | case1 barred => simp_all
  | case2 barred n rest hb ih => exact ih h
  | case3 barred n rest hb c hc ih =>
    obtain ⟨ms, hms, rfl⟩ := map_eq_ok h
    rintro x (_ | ⟨_, hx⟩)
    · exact ⟨⟨c, hc⟩, by simpa using hb⟩
    · have hx' := ih hms x hx
      exact ⟨hx'.1, by simpa using (Bool.or_eq_false_iff.1 hx'.2).1⟩
  | case4 barred n rest hb m hm ih =>
    intro x hx
    have hx' := ih h x hx
    exact ⟨hx'.1, (Bool.or_eq_false_iff.1 hx'.2).1⟩
  | case5 => simp at h

/-- No class is entered twice. -/
theorem nodup_lineage {barred : ClassName → Bool} {stack ns : List ClassName}
    (h : source.lineage barred stack = .ok ns) : ns.Nodup := by
  fun_induction lineage source barred stack generalizing ns with
  | case1 barred => simp_all
  | case2 barred n rest hb ih => exact ih h
  | case3 barred n rest hb c hc ih =>
    obtain ⟨ms, hms, rfl⟩ := map_eq_ok h
    refine List.nodup_cons.2 ⟨fun hn => ?_, ih hms⟩
    simpa using (free_of_mem_lineage hms n hn).2
  | case4 barred n rest hb m hm ih => exact ih h
  | case5 => simp at h

/-- **Completeness of the walk.** What the stack and the classes of a lineage name is barred, or in
    the lineage, or not there. -/
theorem covers_of_lineage {barred : ClassName → Bool} {stack ns : List ClassName}
    (h : source.lineage barred stack = .ok ns) {m : ClassName}
    (hm : m ∈ stack ∨ ∃ n ∈ ns, ∃ c, source.find n = .ok c ∧ m ∈ c.ancestors) :
    barred m = true ∨ m ∈ ns ∨ source.Lacks m := by
  fun_induction lineage source barred stack generalizing ns with
  | case1 barred => simp_all
  | case2 barred n rest hb ih =>
    rcases hm with hm | hm
    · rcases List.mem_cons.1 hm with rfl | hm
      · exact .inl hb
      · exact ih h (.inl hm)
    · exact ih h (.inr hm)
  | case3 barred n rest hb c hc ih =>
    obtain ⟨ms, hms, rfl⟩ := map_eq_ok h
    by_cases hmn : m = n
    · exact .inr (.inl (hmn ▸ List.mem_cons_self ..))
    -- An ancestor of `n` itself stands on the new stack.
    have hm' : m ∈ c.ancestors ++ rest
        ∨ ∃ k ∈ ms, ∃ d, source.find k = .ok d ∧ m ∈ d.ancestors := by
      rcases hm with hm | ⟨k, hk, d, hd, hm⟩
      · exact .inl (List.mem_append_right _ ((List.mem_cons.1 hm).resolve_left hmn))
      · rcases List.mem_cons.1 hk with rfl | hk
        · rw [hc, Except.ok.injEq] at hd
          exact .inl (List.mem_append_left _ (hd ▸ hm))
        · exact .inr ⟨k, hk, d, hd, hm⟩
    rcases ih hms hm' with hb' | hb' | hb'
    · exact .inl (by simpa [hmn] using hb')
    · exact .inr (.inl (List.mem_cons_of_mem _ hb'))
    · exact .inr (.inr hb')
  -- What is asked for is `n` itself, which is lacking, or stands behind it.
  | case4 barred n rest hb k hk ih =>
    by_cases hmn : m = n
    · exact .inr (.inr (hmn ▸ ⟨k, hk⟩))
    have hm' : m ∈ rest ∨ ∃ k ∈ ns, ∃ d, source.find k = .ok d ∧ m ∈ d.ancestors :=
      hm.imp_left fun hm => (List.mem_cons.1 hm).resolve_left hmn
    rcases ih h hm' with hb' | hb' | hb'
    · exact .inl (by simpa [hmn] using hb')
    · exact .inr (.inl hb')
    · exact .inr (.inr hb')
  | case5 => simp at h

/-- The same with a list of barred classes. -/
theorem mem_or_lacks_of_lineage {barred stack ns : List ClassName}
    (h : source.lineage barred.contains stack = .ok ns) {m : ClassName}
    (hm : m ∈ stack ∨ ∃ n ∈ ns, ∃ c, source.find n = .ok c ∧ m ∈ c.ancestors) :
    m ∈ barred ∨ m ∈ ns ∨ source.Lacks m :=
  (covers_of_lineage h hm).imp_left List.contains_iff_mem.1

/-- **Soundness of the walk.** A property of the stack that passes on to the ancestors of unbarred
    classes is one of the whole lineage. -/
theorem forall_mem_lineage {barred : ClassName → Bool} {stack ns : List ClassName}
    (h : source.lineage barred stack = .ok ns) {S : ClassName → Prop} (hs : ∀ n ∈ stack, S n)
    (hS : ∀ {a c}, S a → barred a = false → source.find a = .ok c → ∀ b ∈ c.ancestors, S b) :
    ∀ n ∈ ns, S n := by
  fun_induction lineage source barred stack generalizing ns with
  | case1 barred => simp_all
  | case2 barred n rest hb ih => exact ih h (fun m hm => hs m (List.mem_cons_of_mem _ hm)) hS
  | case3 barred n rest hb c hc ih =>
    obtain ⟨ms, hms, rfl⟩ := map_eq_ok h
    have hn : S n := hs n (List.mem_cons_self ..)
    rintro x (_ | ⟨_, hx⟩)
    · exact hn
    · -- More is barred on the new stack, so `S` passes on there as well.
      refine ih hms (fun m hm => ?_) (fun ha hb' => hS ha (Bool.or_eq_false_iff.1 hb').1) x hx
      rcases List.mem_append.1 hm with hm | hm
      · exact hS hn (by simpa using hb) hc m hm
      · exact hs m (List.mem_cons_of_mem _ hm)
  | case4 barred n rest hb k hk ih =>
    exact ih h (fun m hm => hs m (List.mem_cons_of_mem _ hm))
      fun ha hb' => hS ha (Bool.or_eq_false_iff.1 hb').1
  | case5 => simp at h

/-- A walk fails only with the fault of a class that it reaches. -/
theorem exists_of_lineage_eq_error {barred : ClassName → Bool} {stack : List ClassName}
    {fault : Fault} (h : source.lineage barred stack = .error fault) {S : ClassName → Prop}
    (hs : ∀ n ∈ stack, S n)
    (hS : ∀ {a c}, S a → barred a = false → source.find a = .ok c → ∀ b ∈ c.ancestors, S b) :
    ∃ n, S n ∧ source.find n = .error fault ∧ ∀ m, fault ≠ .classNotFound m := by
  fun_induction lineage source barred stack with
  | case1 barred => simp at h
  | case2 barred n rest hb ih => exact ih h (fun m hm => hs m (List.mem_cons_of_mem _ hm)) hS
  | case3 barred n rest hb c hc ih =>
    refine ih (map_eq_error h) (fun m hm => ?_)
      fun ha hb' => hS ha (Bool.or_eq_false_iff.1 hb').1
    rcases List.mem_append.1 hm with hm | hm
    · exact hS (hs n (List.mem_cons_self ..)) (by simpa using hb) hc m hm
    · exact hs m (List.mem_cons_of_mem _ hm)
  | case4 barred n rest hb k hk ih =>
    exact ih h (fun m hm => hs m (List.mem_cons_of_mem _ hm))
      fun ha hb' => hS ha (Bool.or_eq_false_iff.1 hb').1
  -- The class on top of the stack is the one that fails.
  | case5 barred n rest hb f hl hf =>
    rw [Except.error.injEq] at h
    subst h
    exact ⟨n, hs n (List.mem_cons_self ..), hf, hl⟩

/-- **The ancestors outside the barred classes.** A lineage over the ancestors of `n` holds exactly
    the classes that steps up the hierarchy reach without entering a barred class. -/
theorem mem_lineage_iff {barred : ClassName → Bool} {n : ClassName} {c : ClassFile}
    {ns : List ClassName} (hc : source.find n = .ok c)
    (h : source.lineage barred c.ancestors = .ok ns) {m : ClassName} :
    m ∈ ns ↔ TransGen (fun a b => source.Extends a b ∧ barred b = false) n m := by
  constructor
  · -- Soundness carries the chain, under the condition that its end may be entered.
    intro hm
    obtain ⟨hm', hb⟩ := free_of_mem_lineage h m hm
    refine forall_mem_lineage h
      (S := fun b => source.Has b → barred b = false → TransGen _ n b) ?_ ?_ m hm hm' hb
    · exact fun b hb hb' hb'' => .single ⟨⟨c, hc, hb, hb'⟩, hb''⟩
    · exact fun ha ha' hd b hb hb' hb'' => .tail (ha ⟨_, hd⟩ ha') ⟨⟨_, hd, hb, hb'⟩, hb''⟩
  · -- Completeness, with the other two of its cases ruled out, follows a chain step by step.
    have mem_of : ∀ b, (b ∈ c.ancestors ∨ ∃ a ∈ ns, ∃ d, source.find a = .ok d ∧ b ∈ d.ancestors) →
        source.Has b → barred b = false → b ∈ ns := by
      intro b hb hb' hb''
      rcases covers_of_lineage h hb with h' | h' | h'
      · simp [hb''] at h'
      · exact h'
      · exact absurd h' hb'.not_lacks
    intro hm
    induction hm with
    | single hb =>
      obtain ⟨⟨d, hd, hb, hb'⟩, hb''⟩ := hb
      rw [hc, Except.ok.injEq] at hd
      exact mem_of _ (.inl (hd ▸ hb)) hb' hb''
    -- The class before the last one is in the lineage, so that its ancestors are covered.
    | tail _ hb ih =>
      obtain ⟨⟨d, hd, hb, hb'⟩, hb''⟩ := hb
      exact mem_of _ (.inr ⟨_, ih, d, hd, hb⟩) hb' hb''

end PrimaryDex.ClassSource
