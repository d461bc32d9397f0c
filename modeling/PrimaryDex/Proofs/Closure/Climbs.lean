import Mathlib.Data.List.Lex
import PrimaryDex.Proofs.Closure.Ascents

namespace PrimaryDex

open Relation

/-!
# Climbs, and the order of the classes above a class

A class may be reached from below in several ways. Where it comes to be pending depends on the first of
them, in the order in which class files declare ancestors.

* `ClassSource.Climb` — a way up from some declared names, by the place of each step in its declaration.
  Climbs are compared like words in a dictionary;
* `ClassSource.FirstClimbs` — a table with the first climb to each class, in order. Each constructor of
  `DepthFirst` keeps it (`FirstClimbs.skip`, `FirstClimbs.enter`);
* `ClassSource.DepthFirst.exists_firstClimbs` — hence, in a hierarchy without circles, depth-first order is
  the order of the first climbs;
* `Pass.Moment.Arises.pending_by_climbs` — so an ascent leaves its classes pending in the reverse order of
  their first climbs. That need not be from the top down (`Pass.ascend_diamond`).
-/

namespace ClassSource

variable {source : ClassSource} {barred : ClassName → Bool} {n m : ClassName} {c : ClassFile}
  {before ns : List ClassName} {is js : List ℕ}

/-- One step up the hierarchy, to a class that is not barred. -/
def StepsUp (source : ClassSource) (barred : ClassName → Bool) (a b : ClassName) : Prop :=
  source.Extends a b ∧ barred b = false

/-! ### Climbs -/

/-- A climb from some declared names to a class, through classes that the source has and that are not
    barred. It is told by the place of each of its classes in the declaration of the one below. -/
inductive Climb (source : ClassSource) (barred : ClassName → Bool) :
    List ClassName → List ℕ → ClassName → Prop where
  | last {n : ClassName} {ns : List ClassName} {i : ℕ} (hi : ns[i]? = some n)
      (hb : barred n = false) (hn : source.Has n) : Climb source barred ns [i] n
  | step {n m : ClassName} {c : ClassFile} {ns : List ClassName} {i : ℕ} {is : List ℕ}
      (hi : ns[i]? = some n) (hb : barred n = false) (hc : source.find n = .ok c)
      (hm : Climb source barred c.ancestors is m) : Climb source barred ns (i :: is) m

/-- The same places, counted from one name earlier. -/
def shifted : List ℕ → List ℕ
  | [] => []
  | i :: is => (i + 1) :: is

namespace Climb

/-- A climb has a step. -/
theorem ne_nil (h : Climb source barred ns is m) : is ≠ [] := by
  cases h with
  | last => exact List.cons_ne_nil _ _
  | step => exact List.cons_ne_nil _ _

/-- The places tell where a climb leads. -/
theorem unique {m' : ClassName} (h : Climb source barred ns is m)
    (h' : Climb source barred ns is m') : m = m' := by
  induction h with
  | last hi =>
    cases h' with
    | last hi' => exact Option.some.inj (hi.symm.trans hi')
    | step _ _ _ hm' => exact absurd rfl hm'.ne_nil
  | step hi _ hc hm ih =>
    cases h' with
    | last => exact absurd rfl hm.ne_nil
    | step hi' _ hc' hm' =>
      obtain rfl := Option.some.inj (hi.symm.trans hi')
      obtain rfl := Except.ok.inj (hc.symm.trans hc')
      exact ih hm'

/-- A climb from the later names is one from all of them. -/
theorem shift (h : Climb source barred ns is m) : Climb source barred (n :: ns) (shifted is) m := by
  cases h with
  | last hi hb hn => exact .last (by rwa [List.getElem?_cons_succ]) hb hn
  | step hi hb hc hm => exact .step (by rwa [List.getElem?_cons_succ]) hb hc hm

/-- A climb ends at the first name, or goes on from it, or starts from a later one. -/
theorem cons_cases (h : Climb source barred (n :: ns) is m) :
    (is = [0] ∧ m = n ∧ barred n = false ∧ source.Has n)
      ∨ (∃ c js, is = 0 :: js ∧ barred n = false ∧ source.find n = .ok c
          ∧ Climb source barred c.ancestors js m)
      ∨ ∃ js, is = shifted js ∧ Climb source barred ns js m := by
  -- The first index of the climb picks the first name, or another one, whose index goes down by
  -- one.
  cases h with
  | @last _ _ i hi hb hn =>
    cases i with
    | zero =>
      obtain rfl : n = m := by simpa using hi
      exact .inl ⟨rfl, rfl, hb, hn⟩
    | succ i =>
      rw [List.getElem?_cons_succ] at hi
      exact .inr (.inr ⟨[i], rfl, .last hi hb hn⟩)
  | @step k _ c _ i js hi hb hc hm =>
    cases i with
    | zero =>
      obtain rfl : n = k := by simpa using hi
      exact .inr (.inl ⟨c, js, rfl, hb, hc, hm⟩)
    | succ i =>
      rw [List.getElem?_cons_succ] at hi
      exact .inr (.inr ⟨i :: js, rfl, .step hi hb hc hm⟩)

/-- A climb goes up the hierarchy. -/
theorem transGen (hc : source.find n = .ok c) (h : Climb source barred c.ancestors is m) :
    TransGen (source.StepsUp barred) n m := by
  generalize hns : c.ancestors = ns at h
  induction h generalizing n c with
  | last hi hb hn =>
    have hmem := List.mem_of_getElem? hi
    exact .single ⟨⟨c, hc, hns ▸ hmem, hn⟩, hb⟩
  | step hi hb hd _ ih =>
    have hmem := List.mem_of_getElem? hi
    have hstep : source.StepsUp barred n _ := ⟨⟨c, hc, hns ▸ hmem, ⟨_, hd⟩⟩, hb⟩
    exact .head hstep (ih hd rfl)

end Climb

/-- Each class up the hierarchy is climbed to. -/
theorem exists_climb_of_transGen (hc : source.find n = .ok c)
    (h : TransGen (source.StepsUp barred) n m) :
    ∃ is, Climb source barred c.ancestors is m := by
  induction h using TransGen.head_induction_on generalizing c with
  | single h =>
    obtain ⟨⟨d, hd, hm, hm'⟩, hb⟩ := h
    obtain rfl := Except.ok.inj (hc.symm.trans hd)
    obtain ⟨i, hi⟩ := List.mem_iff_getElem?.1 hm
    exact ⟨[i], .last hi hb hm'⟩
  | head h _ ih =>
    obtain ⟨⟨d, hd, hk, ⟨e, he⟩⟩, hb⟩ := h
    obtain rfl := Except.ok.inj (hc.symm.trans hd)
    obtain ⟨i, hi⟩ := List.mem_iff_getElem?.1 hk
    obtain ⟨is, his⟩ := ih he
    exact ⟨i :: is, .step hi hb he his⟩

/-! ### The order of climbs -/

/-- A climb comes before all that go on from it. -/
theorem lt_of_isPrefix {is js : List ℕ} (h : is <+: js) (hne : is ≠ js) : is < js := by
  obtain ⟨ks, rfl⟩ := h
  induction is with
  | nil =>
    cases ks with
    | nil => exact absurd rfl hne
    | cons k ks => exact List.nil_lt_cons k ks
  | cons i is ih => exact List.cons_lt_cons_iff.2 (.inr ⟨rfl, ih (by simpa using hne)⟩)

/-- The step to the first name comes before all that go on from it. -/
theorem zero_lt_zero_cons {is : List ℕ} (h : is ≠ []) : [0] < 0 :: is := by
  apply lt_of_isPrefix (List.prefix_append [0] is)
  simpa using h.symm

/-- What goes on from the first name comes before what starts from a later one. -/
theorem zero_cons_lt_shifted (is : List ℕ) {js : List ℕ} (h : js ≠ []) : 0 :: is < shifted js := by
  cases js with
  | nil => exact absurd rfl h
  | cons j js => exact List.cons_lt_cons_iff.2 (.inl (Nat.succ_pos j))

/-- Climbs from later names keep their order when one name is put before these. -/
theorem shifted_lt_shifted {is js : List ℕ} (h : is < js) (hi : is ≠ []) : shifted is < shifted js := by
  match is, js with
  | [], _ => exact absurd rfl hi
  | _ :: _, [] => exact absurd h (List.not_lt_nil _)
  | i :: is, j :: js =>
    show (i + 1) :: is < (j + 1) :: js
    rw [List.cons_lt_cons_iff] at h ⊢
    rcases h with h | ⟨rfl, h⟩
    · left
      omega
    · exact .inr ⟨rfl, h⟩

/-- They keep it also where they may be the same. -/
theorem shifted_le_shifted {is js : List ℕ} (h : is ≤ js) (hi : is ≠ []) :
    shifted is ≤ shifted js := by
  rcases h.lt_or_eq with h | rfl
  · exact (shifted_lt_shifted h hi).le
  · exact le_rfl

/-- Climbs keep their order behind a common first step. -/
theorem cons_le_cons_of_le (i : ℕ) {is js : List ℕ} (h : is ≤ js) : i :: is ≤ i :: js := by
  rcases h.lt_or_eq with h | rfl
  · exact (List.cons_lt_cons_iff.2 (.inr ⟨rfl, h⟩)).le
  · exact le_rfl

/-- No climb comes before the step to the first name. -/
theorem Climb.zero_le (h : source.Climb barred (n :: ns) is m) : [0] ≤ is := by
  rcases h.cons_cases with ⟨rfl, -⟩ | ⟨_, js, rfl, -, -, hjs⟩ | ⟨js, rfl, hjs⟩
  · exact le_rfl
  · exact (zero_lt_zero_cons hjs.ne_nil).le
  · exact (zero_cons_lt_shifted [] hjs.ne_nil).le

/-! ### Tables of first climbs -/

/-- A table lists, in order, climbs to classes, with none that is later than another climb to the same
    class. Only the classes `before` it may be left out. -/
structure FirstClimbs (source : ClassSource) (barred : ClassName → Bool) (before ns : List ClassName)
    (table : List (List ℕ × ClassName)) : Prop where
  sorted : table.Pairwise (·.1 < ·.1)
  climb : ∀ e ∈ table, source.Climb barred ns e.1 e.2
  first : ∀ {js m}, source.Climb barred ns js m → m ∉ before → ∃ is ≤ js, (is, m) ∈ table

/-- What is climbed to and has its place already is settled: all above it has its place as well. -/
def Settled (source : ClassSource) (barred : ClassName → Bool) (before ns : List ClassName) : Prop :=
  ∀ {b is m}, b ∈ before → source.Climb barred ns is b → TransGen (source.StepsUp barred) b m →
    m ∈ before

namespace FirstClimbs

variable {table : List (List ℕ × ClassName)}

/-- From no names there is no climb, and the empty table has none. -/
theorem nil (barred : ClassName → Bool) (before : List ClassName) :
    source.FirstClimbs barred before [] [] where
  sorted := .nil
  climb := by simp
  first h := by
    cases h with
    | last hi => simp at hi
    | step hi => simp at hi

/-- The climbs of a table from one name earlier are in order as well. -/
theorem sorted_shifted (h : source.FirstClimbs barred before ns table) :
    (table.map (Prod.map shifted id)).Pairwise (·.1 < ·.1) := by
  rw [List.pairwise_map]
  refine h.sorted.imp_of_mem fun he _ hlt => ?_
  exact shifted_lt_shifted hlt (h.climb _ he).ne_nil

/-- The same climbs go for a name more that is passed over, since it leads to nothing new. -/
theorem skip (hn : barred n = true ∨ n ∈ before ∨ source.Lacks n)
    (hs : source.Settled barred before (n :: ns))
    (h : source.FirstClimbs barred before ns table) :
    source.FirstClimbs barred before (n :: ns) (table.map (Prod.map shifted id)) where
  sorted := h.sorted_shifted
  climb := by
    rw [List.forall_mem_map]
    exact fun e he => (h.climb e he).shift
  first {js m} hm hnew := by
    -- A climb to `n` or beyond it leads to what has its place, if `n` is there at all.
    have place (hb : barred n = false) (hh : source.Has n) : n ∈ before := by
      rcases hn with hn | hn | hn
      · simp [hb] at hn
      · exact hn
      · exact absurd hn hh.not_lacks
    rcases hm.cons_cases with ⟨-, rfl, hb, hh⟩ | ⟨c, js, -, hb, hc, hm'⟩ | ⟨js, rfl, hm'⟩
    · exact absurd (place hb hh) hnew
    · have hclimb : source.Climb barred (n :: ns) [0] n := .last rfl hb ⟨c, hc⟩
      exact absurd (hs (place hb ⟨c, hc⟩) hclimb (hm'.transGen hc)) hnew
    · obtain ⟨is, hle, his⟩ := h.first hm' hnew
      refine ⟨shifted is, shifted_le_shifted hle (h.climb _ his).ne_nil, ?_⟩
      exact List.mem_map_of_mem his

end FirstClimbs

/-- The table when a class is entered: the class itself comes first, then what is above it, then what the
    names beside it lead to. -/
def enteredTable (n : ClassName) (above beside : List (List ℕ × ClassName)) :
    List (List ℕ × ClassName) :=
  ([0], n) :: above.map (Prod.map (0 :: ·) id) ++ beside.map (Prod.map shifted id)

section EnteredTable

variable {above beside : List (List ℕ × ClassName)}

/-- The classes of the table, in order: the one that is entered, those above it, those beside it. -/
theorem map_snd_enteredTable (n : ClassName) (above beside : List (List ℕ × ClassName)) :
    (enteredTable n above beside).map Prod.snd
      = n :: above.map Prod.snd ++ beside.map Prod.snd := by
  simp [enteredTable, Function.comp_def]

/-- A climb from what is entered goes on from its place. -/
theorem mem_enteredTable_of_above (h : (is, m) ∈ above) :
    (0 :: is, m) ∈ enteredTable n above beside := by
  have hmem := List.mem_map_of_mem (f := Prod.map (0 :: ·) id) h
  exact List.mem_append_left _ (List.mem_cons_of_mem _ hmem)

/-- A climb from the later names is counted from one name earlier. -/
theorem mem_enteredTable_of_beside (h : (is, m) ∈ beside) :
    (shifted is, m) ∈ enteredTable n above beside := by
  have hmem := List.mem_map_of_mem (f := Prod.map shifted id) h
  exact List.mem_append_right _ hmem

/-- A property of all three parts of the table is one of the table. -/
theorem forall_mem_enteredTable {P : List ℕ × ClassName → Prop} (hn : P ([0], n))
    (habove : ∀ e ∈ above, P (0 :: e.1, e.2)) (hbeside : ∀ e ∈ beside, P (shifted e.1, e.2)) :
    ∀ e ∈ enteredTable n above beside, P e := by
  rw [enteredTable, List.cons_append, List.forall_mem_cons, List.forall_mem_append,
    List.forall_mem_map, List.forall_mem_map]
  exact ⟨hn, habove, hbeside⟩

namespace FirstClimbs

/-- The table is in order if both of its parts are. -/
theorem sorted_enteredTable {before' : List ClassName}
    (habove : source.FirstClimbs barred before c.ancestors above)
    (hbeside : source.FirstClimbs barred before' ns beside) :
    (enteredTable n above beside).Pairwise (·.1 < ·.1) := by
  rw [enteredTable, List.cons_append, List.pairwise_cons, List.pairwise_append,
    List.forall_mem_append, List.forall_mem_map, List.forall_mem_map, List.pairwise_map,
    List.forall_mem_map]
  -- Four comparisons: of the class with each part, within the first part, and between the parts.
  refine ⟨⟨?_, ?_⟩, ?_, hbeside.sorted_shifted, ?_⟩
  · intro e he
    exact zero_lt_zero_cons (habove.climb e he).ne_nil
  · intro e he
    exact zero_cons_lt_shifted [] (hbeside.climb e he).ne_nil
  · exact habove.sorted.imp fun hlt => List.cons_lt_cons_iff.2 (.inr ⟨rfl, hlt⟩)
  · intro e _
    rw [List.forall_mem_map]
    intro f hf
    exact zero_cons_lt_shifted e.1 (hbeside.climb f hf).ne_nil

/-- **Entering a class.** If the first climbs above a class and beside it are known, so are those
    from all the names. -/
theorem enter (hb : barred n = false) (hc : source.find n = .ok c)
    (habove : source.FirstClimbs barred (before ++ [n]) c.ancestors above)
    (hbeside : source.FirstClimbs barred (before ++ n :: above.map Prod.snd) ns beside) :
    source.FirstClimbs barred before (n :: ns) (enteredTable n above beside) where
  sorted := habove.sorted_enteredTable hbeside
  climb := by
    apply forall_mem_enteredTable
    · exact .last rfl hb ⟨c, hc⟩
    · exact fun e he => .step rfl hb hc (habove.climb e he)
    · exact fun e he => (hbeside.climb e he).shift
  first {js m} hm hnew := by
    by_cases hmn : m = n
    · subst hmn
      exact ⟨[0], hm.zero_le, List.mem_cons_self ..⟩
    rcases hm.cons_cases with ⟨-, he, -⟩ | ⟨d, js, rfl, -, hd, hm'⟩ | ⟨js, rfl, hm'⟩
    · exact absurd he hmn
    · obtain rfl := Except.ok.inj (hc.symm.trans hd)
      obtain ⟨is, hle, his⟩ := habove.first hm' (by simp [hnew, hmn])
      exact ⟨0 :: is, cons_le_cons_of_le 0 hle, mem_enteredTable_of_above his⟩
    · by_cases hma : m ∈ above.map Prod.snd
      · -- The climb through `n` is the earlier one.
        obtain ⟨⟨is, _⟩, his, rfl⟩ := List.mem_map.1 hma
        exact ⟨0 :: is, (zero_cons_lt_shifted is hm'.ne_nil).le, mem_enteredTable_of_above his⟩
      · obtain ⟨is, hle, his⟩ := hbeside.first hm' (by simp [hnew, hmn, hma])
        have hshift := shifted_le_shifted hle (hbeside.climb _ his).ne_nil
        exact ⟨shifted is, hshift, mem_enteredTable_of_beside his⟩

end FirstClimbs

end EnteredTable

/-- When a class is entered, its own place is settled for what is above it: no climb comes back to it. -/
theorem Settled.above (hs : source.Settled barred before (n :: ns)) (hb : barred n = false)
    (hc : source.find n = .ok c) (hn : ¬ TransGen (source.StepsUp barred) n n) :
    source.Settled barred (before ++ [n]) c.ancestors := by
  intro b is m hbefore his hm
  rcases List.mem_append.1 hbefore with hbefore | hbn
  · have hclimb : source.Climb barred (n :: ns) (0 :: is) b := .step rfl hb hc his
    exact List.mem_append_left _ (hs hbefore hclimb hm)
  · obtain rfl := List.mem_singleton.1 hbn
    exact absurd (his.transGen hc) hn

/-- After a class was entered, all above it has its place. -/
theorem FirstClimbs.mem_of_transGen {above : List (List ℕ × ClassName)} (hc : source.find n = .ok c)
    (habove : source.FirstClimbs barred (before ++ [n]) c.ancestors above)
    (hm : TransGen (source.StepsUp barred) n m) : m ∈ before ++ n :: above.map Prod.snd := by
  rw [List.append_cons, List.mem_append, or_iff_not_imp_left]
  intro hm'
  obtain ⟨js, hjs⟩ := exists_climb_of_transGen hc hm
  obtain ⟨is, -, his⟩ := habove.first hjs hm'
  exact List.mem_map_of_mem (f := Prod.snd) his

/-- So all that was entered is settled for the names beside it. -/
theorem Settled.beside {above : List (List ℕ × ClassName)}
    (hs : source.Settled barred before (n :: ns)) (hc : source.find n = .ok c)
    (habove : source.FirstClimbs barred (before ++ [n]) c.ancestors above) :
    source.Settled barred (before ++ n :: above.map Prod.snd) ns := by
  intro b is m hbefore his hm
  rcases List.mem_append.1 hbefore with hbefore | hb
  · exact List.mem_append_left _ (hs hbefore his.shift hm)
  · apply habove.mem_of_transGen hc
    rcases List.mem_cons.1 hb with rfl | hb
    · exact hm
    · obtain ⟨e, he, rfl⟩ := List.mem_map.1 hb
      exact ((habove.climb e he).transGen hc).trans hm

/-- **Depth-first order is the order of the first climbs**, if no class is above itself. At the start,
    whatever has its place has to be settled. -/
theorem DepthFirst.exists_firstClimbs {row : List ClassName}
    (h : source.DepthFirst barred before ns row)
    (hacyclic : ∀ {is m}, source.Climb barred ns is m → ¬ TransGen (source.StepsUp barred) m m)
    (hs : source.Settled barred before ns) :
    ∃ table, table.map Prod.snd = row ∧ source.FirstClimbs barred before ns table := by
  induction h with
  | nil => exact ⟨[], rfl, .nil barred _⟩
  | skip hn _ ih =>
    obtain ⟨table, rfl, htable⟩ := ih (fun his => hacyclic his.shift) fun hb his => hs hb his.shift
    exact ⟨table.map (Prod.map shifted id), by simp, htable.skip hn hs⟩
  | @enter n c before ns above row hb hn hc _ _ ih ih' =>
    have hclimb : source.Climb barred (n :: ns) [0] n := .last rfl hb ⟨c, hc⟩
    have through {is m} (his : source.Climb barred c.ancestors is m) :
        source.Climb barred (n :: ns) (0 :: is) m := .step rfl hb hc his
    -- The ancestors of `n` come first, then the names beside it.
    obtain ⟨tableAbove, rfl, habove⟩ :=
      ih (fun his => hacyclic (through his)) (hs.above hb hc (hacyclic hclimb))
    obtain ⟨table, rfl, htable⟩ := ih' (fun his => hacyclic his.shift) (hs.beside hc habove)
    exact ⟨_, map_snd_enteredTable n tableAbove table, habove.enter hb hc htable⟩

/-- In a table with falling keys, the one of two classes comes first that has the greater key. -/
theorem idxOf_map_lt_idxOf_map_iff {κ α : Type} [LinearOrder κ] [DecidableEq α] {l : List (κ × α)}
    (hl : l.Pairwise fun a b => b.1 < a.1) (hnd : (l.map Prod.snd).Nodup) {e f : κ × α}
    (he : e ∈ l) (hf : f ∈ l) :
    (l.map Prod.snd).idxOf f.2 < (l.map Prod.snd).idxOf e.2 ↔ e.1 < f.1 := by
  induction l with
  | nil => cases he
  | cons g l ih =>
    rw [List.pairwise_cons] at hl
    rw [List.map_cons, List.nodup_cons] at hnd
    have ne {a : κ × α} (ha : a ∈ l) : g.2 ≠ a.2 := fun h =>
      hnd.1 (h ▸ List.mem_map_of_mem (f := Prod.snd) ha)
    rw [List.map_cons]
    rcases List.mem_cons.1 he with rfl | he'
    · rcases List.mem_cons.1 hf with rfl | hf'
      · simp
      · simp [(hl.1 f hf').le]
    · rcases List.mem_cons.1 hf with rfl | hf'
      · simp [List.idxOf_cons_ne _ (ne he'), hl.1 e he']
      · rw [List.idxOf_cons_ne _ (ne he'), List.idxOf_cons_ne _ (ne hf'), Nat.succ_lt_succ_iff]
        exact ih hl.2 hnd.2 he' hf'

namespace FirstClimbs

variable {table : List (List ℕ × ClassName)} {e f : List ℕ × ClassName}

/-- No climb to a class comes before the one in the table. -/
theorem le_of_climb (h : source.FirstClimbs barred [] ns table) (hnd : (table.map Prod.snd).Nodup)
    (he : e ∈ table) (hjs : source.Climb barred ns js e.2) : e.1 ≤ js := by
  obtain ⟨is, hle, his⟩ := h.first hjs List.not_mem_nil
  have heq : (is, e.2) = e := List.inj_on_of_nodup_map hnd his he rfl
  calc e.1 = is := (congrArg Prod.fst heq).symm
    _ ≤ js := hle

/-- A class comes before another in the table if some climb to it comes before all climbs to the
    other. -/
theorem lt_iff (h : source.FirstClimbs barred [] ns table) (hnd : (table.map Prod.snd).Nodup)
    (he : e ∈ table) (hf : f ∈ table) :
    e.1 < f.1
      ↔ ∃ is, source.Climb barred ns is e.2 ∧ ∀ js, source.Climb barred ns js f.2 → is < js := by
  constructor
  · intro hlt
    exact ⟨e.1, h.climb e he, fun js hjs => hlt.trans_le (h.le_of_climb hnd hf hjs)⟩
  · rintro ⟨is, his, hlt⟩
    exact (h.le_of_climb hnd he his).trans_lt (hlt f.1 (h.climb f hf))

/-- If each climb to one class passes through another, the other is the first of the two. -/
theorem lt_of_through (h : source.FirstClimbs barred [] ns table) (hnd : (table.map Prod.snd).Nodup)
    (he : e ∈ table) (hf : f ∈ table) (hne : e.2 ≠ f.2)
    (hthrough : ∀ js, source.Climb barred ns js f.2 →
      ∃ is, source.Climb barred ns is e.2 ∧ is <+: js) :
    e.1 < f.1 := by
  obtain ⟨is, his, hpre⟩ := hthrough f.1 (h.climb f hf)
  have hstrict : is ≠ f.1 := fun heq => hne (his.unique (heq ▸ h.climb f hf))
  exact (h.le_of_climb hnd he his).trans_lt (lt_of_isPrefix hpre hstrict)

end FirstClimbs

end ClassSource

namespace Pass

variable {source : ClassSource} {p q : Pass source} {n : ClassName}

/-- **Where an ascent leaves its classes.** If no class above `n` is above itself, the ascent from `n` moves
    what is above `n` to the front of the pending classes, and there a class `y` stands before `x` exactly
    if the first climb to `x` comes before all climbs to `y`. That is so if each climb to `y` passes through
    `x`. -/
theorem Moment.Arises.pending_by_climbs {roots : List ClassName} {c : ClassFile}
    {hc : source.find n = .ok c}
    (hm : Moment.Arises source roots (.ascending n c hc p ∅ (c.ancestors.map .enter)))
    (h : p.ascend ∅ (c.ancestors.map .enter) = .ok q)
    (hacyclic : ∀ m, TransGen source.Extends n m → ¬ TransGen source.Extends m m) :
    ∃ moved, q.pending.toList = moved ++ p.pending.toList.filter (· ∉ moved)
      ∧ (∀ m, m ∈ moved ↔ TransGen (source.StepsUp p.isResolved) n m)
      ∧ ∀ x ∈ moved, ∀ y ∈ moved,
        (q.pending.toList.idxOf y < q.pending.toList.idxOf x
          ↔ ∃ is, source.Climb p.isResolved c.ancestors is x
            ∧ ∀ js, source.Climb p.isResolved c.ancestors js y → is < js)
        ∧ (x ≠ y → (∀ js, source.Climb p.isResolved c.ancestors js y →
            ∃ is, source.Climb p.isResolved c.ancestors is x ∧ is <+: js) →
          q.pending.toList.idxOf y < q.pending.toList.idxOf x) := by
  obtain ⟨hp, -⟩ := hm.sound
  obtain ⟨order, horder, hq⟩ := exists_ascended hp hc h
  have hnd := ClassSource.nodup_lineage horder
  have up {k m} (hkm : TransGen (source.StepsUp p.isResolved) k m) : TransGen source.Extends k m :=
    hkm.lift id fun _ _ hstep => hstep.1
  have hrow := (ClassSource.depthFirst_iff_of_lineage horder).2 rfl
  -- At the start no class has its place, and the hierarchy above `n` has no circle.
  obtain ⟨table, rfl, htable⟩ := hrow.exists_firstClimbs
    (fun his hcircle => hacyclic _ (up (his.transGen hc)) (up hcircle))
    fun hb => absurd hb List.not_mem_nil
  refine ⟨(table.map Prod.snd).reverse, ?_, fun m => ?_, fun x hx y hy => ?_⟩
  · simpa only [List.mem_reverse] using hq.pending
  · rw [List.mem_reverse]
    exact ClassSource.mem_lineage_iff hc horder
  · obtain ⟨e, he, rfl⟩ := List.mem_map.1 (List.mem_reverse.1 hx)
    obtain ⟨f, hf, rfl⟩ := List.mem_map.1 (List.mem_reverse.1 hy)
    have hidx : q.pending.toList.idxOf f.2 < q.pending.toList.idxOf e.2 ↔ e.1 < f.1 := by
      rw [hq.pending, List.idxOf_append_of_mem hy, List.idxOf_append_of_mem hx, ← List.map_reverse]
      apply ClassSource.idxOf_map_lt_idxOf_map_iff
      · exact List.pairwise_reverse.2 htable.sorted
      · rwa [List.map_reverse, List.nodup_reverse]
      · exact List.mem_reverse.2 he
      · exact List.mem_reverse.2 hf
    exact ⟨hidx.trans (htable.lt_iff hnd he hf),
      fun hne hthrough => hidx.2 (htable.lt_of_through hnd he hf hne hthrough)⟩

/-- The ascent from the only root, when the classes above it are known. -/
theorem exists_ascent_of_root {c : ClassFile} {order : List ClassName} (hc : source.find n = .ok c)
    (horder : source.lineage [n].contains c.ancestors = .ok order) :
    ∃ p q : Pass source,
      Moment.Arises source [n] (.ascending n c hc p ∅ (c.ancestors.map .enter))
      ∧ p.ascend ∅ (c.ancestors.map .enter) = .ok q
      ∧ p.isResolved = [n].contains ∧ q.pending.toList = order.reverse := by
  obtain ⟨hs, hstart⟩ := ClassSource.stage_start source [n]
  have hs' : ([n].foldl enqueue (Pass.start source)).stage = ⟨[], [n]⟩ := by
    simpa [Stage.start, Stage.enqueue] using hs
  obtain ⟨p, hstage, hturn⟩ :=
    exists_turn_of_find (.ofList [n]) hstart (congrArg Stage.pending hs') hc
  rw [hs'] at hstage
  have hm : Moment.Arises source [n] (.ascending n c hc p ∅ (c.ancestors.map .enter)) :=
    hturn ▸ .turn .start
  obtain ⟨hp, -⟩ := hm.sound
  -- Only the root itself is resolved when its ascent starts.
  have hbarred : p.isResolved = [n].contains := by
    funext m
    rw [Bool.eq_iff_iff, hp.isResolved_iff, hstage, List.contains_iff_mem]
    rfl
  cases hq : p.ascend ∅ (c.ancestors.map .enter) with
  | error failure =>
    have hf := ascend_eq_error hp hq
    rw [isResolved_or_contains_empty, toEnter_map, hbarred, horder] at hf
    cases hf
  | ok q =>
    obtain ⟨order', horder', hasc⟩ := exists_ascended hp hc hq
    rw [hbarred, horder, Except.ok.injEq] at horder'
    subst horder'
    have hpend : p.pending.toList = [] := congrArg Stage.pending hstage
    refine ⟨p, q, hm, hq, hbarred, ?_⟩
    rw [hasc.pending, hpend, List.filter_nil, List.append_nil]

end Pass

namespace Sample

open ClassSource

def square : ClassName := ⟨"Square"⟩
def polygon : ClassName := ⟨"Polygon"⟩
def shape : ClassName := ⟨"Shape"⟩
def closed : ClassName := ⟨"Closed"⟩

/-- `Square` declares `Shape` before `Polygon`, which is below it. -/
def squareFile : ClassFile := ⟨⟨"Square", some object, [shape, polygon], ⟨#[]⟩⟩, square⟩

def polygonFile : ClassFile := ⟨⟨"Polygon", some object, [shape, closed], ⟨#[]⟩⟩, polygon⟩

def shapeFile : ClassFile := ⟨⟨"Shape", some object, [], ⟨#[]⟩⟩, shape⟩

def closedFile : ClassFile := ⟨⟨"Closed", some object, [], ⟨#[]⟩⟩, closed⟩

/-- Two ways up from `Square` to `Shape`. -/
def diamond : ClassSource := .ofFiles [squareFile, polygonFile, shapeFile, closedFile]

/-- The platform's root class is not in the diamond. -/
theorem lacks_object_diamond : diamond.Lacks object := ⟨object, rfl⟩

/-- The walk from `Square` enters `Shape` first. -/
theorem lineage_square :
    diamond.lineage [square].contains squareFile.ancestors = .ok [shape, polygon, closed] := by
  have hp : diamond.find polygon = .ok polygonFile := rfl
  have hs : diamond.find shape = .ok shapeFile := rfl
  have hc : diamond.find closed = .ok closedFile := rfl
  simp (disch := decide) [squareFile, polygonFile, shapeFile, closedFile, ClassHeader.ancestors,
    lineage_cons_of_find _ hp, lineage_cons_of_find _ hs, lineage_cons_of_find _ hc,
    lineage_cons_of_lacks _ lacks_object_diamond, lineage_cons_of_barred]

/-- A rank that falls with each step up the diamond. -/
def rank (n : ClassName) : ℕ := if n = square then 2 else if n = polygon then 1 else 0

/-- Each step up lowers the rank. -/
theorem rank_lt_of_extends {a b : ClassName} (h : diamond.Extends a b) : rank b < rank a := by
  obtain ⟨c, hc, hb, hhas⟩ := h
  have hne : b ≠ object := fun he => (he ▸ hhas).not_lacks lacks_object_diamond
  have hfiles : ∀ c ∈ [squareFile, polygonFile, shapeFile, closedFile], ∀ b ∈ c.ancestors,
      b ≠ object → rank b < rank c.name := by decide
  rw [← name_of_find_ofFiles hc]
  exact hfiles c (mem_of_find_ofFiles hc) b hb hne

/-- No class of the diamond is above itself. -/
theorem acyclic_diamond (n : ClassName) : ¬ TransGen diamond.Extends n n := by
  have lower {m : ClassName} (h : TransGen diamond.Extends n m) : rank m < rank n := by
    induction h with
    | single h => exact rank_lt_of_extends h
    | tail _ h ih => exact (rank_lt_of_extends h).trans ih
  exact fun h => lt_irrefl _ (lower h)

/-- From `Shape` there is no way up. -/
theorem not_climb_shapeFile {barred : ClassName → Bool} {is : List ℕ} {n : ClassName} :
    ¬ diamond.Climb barred shapeFile.ancestors is n := by
  intro h
  obtain ⟨k, hk, hhas⟩ : ∃ k ∈ shapeFile.ancestors, diamond.Has k := by
    cases h with
    | last hi _ hn => exact ⟨_, List.mem_of_getElem? hi, hn⟩
    | step hi _ hc _ => exact ⟨_, List.mem_of_getElem? hi, _, hc⟩
  obtain rfl : k = object := List.mem_singleton.1 hk
  exact hhas.not_lacks lacks_object_diamond

/-- The places of the two declared ancestors that are there. -/
theorem place_in_squareFile {i : ℕ} {n : ClassName} (hi : squareFile.ancestors[i]? = some n)
    (hn : diamond.Has n) : i = 1 ∧ n = shape ∨ i = 2 ∧ n = polygon := by
  match i, hi with
  | 0, hi =>
    obtain rfl : object = n := Option.some.inj hi
    exact absurd lacks_object_diamond hn.not_lacks
  | 1, hi => exact .inl ⟨rfl, (Option.some.inj hi).symm⟩
  | 2, hi => exact .inr ⟨rfl, (Option.some.inj hi).symm⟩

/-- From `Square` there is no way up but to `Shape` and through `Polygon`. -/
theorem climb_squareFile {barred : ClassName → Bool} {is : List ℕ} {n : ClassName}
    (h : diamond.Climb barred squareFile.ancestors is n) :
    n = shape ∨ diamond.Climb barred squareFile.ancestors [2] polygon ∧ [2] <+: is := by
  cases h with
  | last hi hb hn =>
    rcases place_in_squareFile hi hn with ⟨-, rfl⟩ | ⟨rfl, rfl⟩
    · exact .inl rfl
    · exact .inr ⟨.last hi hb hn, List.prefix_rfl⟩
  | step hi hb hc hm =>
    rcases place_in_squareFile hi ⟨_, hc⟩ with ⟨-, rfl⟩ | ⟨rfl, rfl⟩
    · obtain rfl := Except.ok.inj (hc.symm.trans (rfl : diamond.find shape = .ok shapeFile))
      exact absurd hm not_climb_shapeFile
    · exact .inr ⟨.last hi hb ⟨_, hc⟩, List.prefix_append [2] _⟩

/-- `Polygon` declares `Shape` as well. -/
theorem extends_polygon_shape : diamond.Extends polygon shape :=
  ⟨polygonFile, rfl, by decide, shapeFile, rfl⟩

end Sample

namespace Pass

open Sample (square polygon shape closed diamond squareFile)

/-- In the diamond, `Shape` is entered before `Polygon`, and is not moved again when `Polygon` leads to it.
    So it stands behind the class that it is an ancestor of. -/
theorem ascend_diamond : ∃ p q : Pass diamond,
    Moment.Arises diamond [square]
      (.ascending square squareFile rfl p ∅ (squareFile.ancestors.map .enter))
    ∧ p.ascend ∅ (squareFile.ancestors.map .enter) = .ok q
    ∧ (∀ n, ¬ TransGen diamond.Extends n n)
    ∧ TransGen (diamond.StepsUp p.isResolved) square polygon
    ∧ TransGen (diamond.StepsUp p.isResolved) square shape
    ∧ diamond.Extends polygon shape
    ∧ q.pending.toList = [closed, polygon, shape]
    ∧ ¬ q.pending.toList.idxOf shape < q.pending.toList.idxOf polygon := by
  obtain ⟨p, q, hm, hq, hbarred, hpend⟩ :=
    exists_ascent_of_root (show diamond.find square = .ok squareFile from rfl) Sample.lineage_square
  have up (m : ClassName) (hmem : m ∈ [shape, polygon, closed]) :
      TransGen (diamond.StepsUp p.isResolved) square m :=
    (ClassSource.mem_lineage_iff rfl (hbarred ▸ Sample.lineage_square)).1 hmem
  refine ⟨p, q, hm, hq, Sample.acyclic_diamond, up polygon (by decide), up shape (by decide),
    Sample.extends_polygon_shape, hpend, ?_⟩
  rw [hpend]
  decide

/-- Each climb to `Closed` passes through `Polygon`, so that `Closed` stands before it. -/
theorem closed_before_polygon : ∃ p q : Pass diamond,
    Moment.Arises diamond [square]
      (.ascending square squareFile rfl p ∅ (squareFile.ancestors.map .enter))
    ∧ p.ascend ∅ (squareFile.ancestors.map .enter) = .ok q
    ∧ (∀ m, TransGen diamond.Extends square m → ¬ TransGen diamond.Extends m m)
    ∧ q.pending.toList.idxOf closed < q.pending.toList.idxOf polygon := by
  obtain ⟨p, q, hm, hq, hbarred, -⟩ :=
    exists_ascent_of_root (show diamond.find square = .ok squareFile from rfl) Sample.lineage_square
  have hacyclic (m : ClassName) (_ : TransGen diamond.Extends square m) :
      ¬ TransGen diamond.Extends m m := Sample.acyclic_diamond m
  obtain ⟨moved, -, hmoved, horder⟩ := hm.pending_by_climbs hq hacyclic
  have mem (m : ClassName) (hmem : m ∈ [shape, polygon, closed]) : m ∈ moved :=
    (hmoved m).2 ((ClassSource.mem_lineage_iff rfl (hbarred ▸ Sample.lineage_square)).1 hmem)
  refine ⟨p, q, hm, hq, hacyclic, ?_⟩
  apply (horder polygon (mem polygon (by decide)) closed (mem closed (by decide))).2 (by decide)
  intro js hjs
  exact ⟨[2], (Sample.climb_squareFile hjs).resolve_left (by decide)⟩

end Pass
end PrimaryDex
