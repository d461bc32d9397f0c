import PrimaryDex.Proofs.Closure.Lineage

namespace PrimaryDex.ClassSource

/-!
# Depth-first order

`lineage` walks with a stack. This is the same order told by recursion on what is named: a class, then
what its ancestors lead to, then what stands beside it.

* `DepthFirst` — the row in which such a walk enters classes, and `DepthFirst.unique`, that there is one
  row only;
* `exists_depthFirst_of_lineage` — a lineage over a stack is such a row, from the names on top, with a
  lineage over those below;
* `depthFirst_iff_of_lineage` — hence a lineage is the one row of a walk in depth-first order.
-/

variable {source : ClassSource} {barred : ClassName → Bool}

/-- The row in which a depth-first walk through some names enters the classes that it does not pass over,
    a class before its ancestors, when those `before` them have their place already. -/
inductive DepthFirst (source : ClassSource) (barred : ClassName → Bool) :
    List ClassName → List ClassName → List ClassName → Prop where
  | nil {before : List ClassName} : DepthFirst source barred before [] []
  /-- Barred classes, those that have a place, and those that the source lacks are passed over. -/
  | skip {n : ClassName} {before ns row : List ClassName}
      (hn : barred n = true ∨ n ∈ before ∨ source.Lacks n)
      (hns : DepthFirst source barred before ns row) : DepthFirst source barred before (n :: ns) row
  | enter {n : ClassName} {c : ClassFile} {before ns above row : List ClassName}
      (hb : barred n = false) (hn : n ∉ before) (hc : source.find n = .ok c)
      (habove : DepthFirst source barred (before ++ [n]) c.ancestors above)
      (hns : DepthFirst source barred (before ++ n :: above) ns row) :
      DepthFirst source barred before (n :: ns) (n :: above ++ row)

namespace DepthFirst

/-- There is one such row only. -/
theorem unique {before ns row row' : List ClassName} (h : source.DepthFirst barred before ns row)
    (h' : source.DepthFirst barred before ns row') : row = row' := by
  -- The next name is passed over by both walks or entered by both.
  induction h generalizing row' with
  | nil =>
    cases h'
    rfl
  | skip hn _ ih =>
    cases h' with
    | skip _ hns' => exact ih hns'
    | enter hb' hn' hc' =>
      rcases hn with hn | hn | hn
      · simp [hb'] at hn
      · exact absurd hn hn'
      · exact absurd hn (Has.not_lacks ⟨_, hc'⟩)
  | enter hb hn hc _ _ ih ih' =>
    cases h' with
    | skip hn' _ =>
      rcases hn' with hn' | hn' | hn'
      · simp [hb] at hn'
      · exact absurd hn' hn
      · exact absurd hn' (Has.not_lacks ⟨_, hc⟩)
    | enter _ _ hc' habove' hns' =>
      obtain rfl := Except.ok.inj (hc.symm.trans hc')
      obtain rfl := ih habove'
      rw [ih' hns']

end DepthFirst

/-- A lineage over a stack goes through its upper part depth first, and then through the rest. What it
    has seen is barred or in the row, as far as the source has it. -/
theorem exists_depthFirst_of_lineage {seen : ClassName → Bool} {before ns rest order : List ClassName}
    (hseen : ∀ m, ¬ source.Lacks m → (seen m = true ↔ barred m = true ∨ m ∈ before))
    (h : source.lineage seen (ns ++ rest) = .ok order) :
    ∃ row below seen', order = row ++ below ∧ source.DepthFirst barred before ns row
      ∧ source.lineage seen' rest = .ok below
      ∧ ∀ m, ¬ source.Lacks m → (seen' m = true ↔ barred m = true ∨ m ∈ before ++ row) := by
  match ns, h with
  | [], h => exact ⟨[], order, seen, rfl, .nil, h, by simpa using hseen⟩
  | n :: ns, h =>
    by_cases hpass : seen n = true ∨ source.Lacks n
    · -- Nothing comes of `n`. That it counts as seen then makes no difference if it is not there.
      obtain ⟨seen', h', hseen'⟩ : ∃ seen', source.lineage seen' (ns ++ rest) = .ok order
          ∧ ∀ m, ¬ source.Lacks m → (seen' m = true ↔ barred m = true ∨ m ∈ before) := by
        cases hn : seen n with
        | true => exact ⟨seen, by rwa [List.cons_append, lineage_cons_of_barred hn] at h, hseen⟩
        | false =>
          have hl : source.Lacks n := hpass.resolve_left (by simp [hn])
          refine ⟨fun m => seen m || m == n,
            by rwa [List.cons_append, lineage_cons_of_lacks hn hl] at h, fun m hm => ?_⟩
          have hmn : m ≠ n := fun he => hm (he ▸ hl)
          simpa [hmn] using hseen m hm
      obtain ⟨row, below, seen'', he, hrow, hbelow, hseen''⟩ := exists_depthFirst_of_lineage hseen' h'
      refine ⟨row, below, seen'', he, .skip ?_ hrow, hbelow, hseen''⟩
      by_cases hl : source.Lacks n
      · exact .inr (.inr hl)
      · exact ((hseen n hl).1 (hpass.resolve_right hl)).imp_right .inl
    · obtain ⟨hn, hl⟩ := not_or.1 hpass
      rw [Bool.not_eq_true] at hn
      have hfree : ¬ (barred n = true ∨ n ∈ before) := by
        rw [← hseen n hl, hn]
        exact Bool.false_ne_true
      cases hc : source.find n with
      | error fault =>
        rw [List.cons_append, lineage_cons_of_error hn hc fun m hm => hl ⟨m, hm ▸ hc⟩] at h
        simp at h
      | ok c =>
        rw [List.cons_append, lineage_cons_of_find hn hc] at h
        obtain ⟨order', horder', rfl⟩ := map_eq_ok h
        have hseen' : ∀ m, ¬ source.Lacks m →
            ((seen m || m == n) = true ↔ barred m = true ∨ m ∈ before ++ [n]) := by
          intro m hm
          rw [Bool.or_eq_true, hseen m hm, List.mem_append, List.mem_singleton, beq_iff_eq, or_assoc]
        -- First the ancestors of `n`, then the names beside it, with all of these in their places.
        obtain ⟨above, below, seenAbove, rfl, habove, hbelow, hseenAbove⟩ :=
          exists_depthFirst_of_lineage hseen' horder'
        rw [List.append_assoc, List.singleton_append] at hseenAbove
        obtain ⟨row, below', seenBeside, rfl, hrow, hbelow', hseenBeside⟩ :=
          exists_depthFirst_of_lineage hseenAbove hbelow
        rw [not_or, Bool.not_eq_true] at hfree
        refine ⟨n :: above ++ row, below', seenBeside, ?_, .enter hfree.1 hfree.2 hc habove hrow, hbelow', ?_⟩
        · simp
        · simpa using hseenBeside
termination_by (order.length, ns.length)

/-- **A lineage is in depth-first order.** It is the row of a walk in which each class is followed by what
    its own ancestors lead to. -/
theorem depthFirst_iff_of_lineage {ns order : List ClassName}
    (h : source.lineage barred ns = .ok order) {row : List ClassName} :
    source.DepthFirst barred [] ns row ↔ row = order := by
  have h' : source.lineage barred (ns ++ []) = .ok order := by rwa [List.append_nil]
  -- At the start, what is seen is what is barred.
  have hseen : ∀ m, ¬ source.Lacks m → (barred m = true ↔ barred m = true ∨ m ∈ []) := by simp
  obtain ⟨row', below, seen, rfl, hrow', hbelow, -⟩ := exists_depthFirst_of_lineage hseen h'
  rw [lineage_nil, Except.ok.injEq] at hbelow
  rw [← hbelow, List.append_nil]
  exact ⟨fun hrow => hrow.unique hrow', fun he => he ▸ hrow'⟩

end PrimaryDex.ClassSource
