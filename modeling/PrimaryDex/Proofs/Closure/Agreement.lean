import PrimaryDex.Proofs.Closure.Plain
import PrimaryDex.Proofs.Closure.Reachability

namespace PrimaryDex

/-!
# Sources whose faults are worded differently

Two sources may give the same answers but for the wording of faults. Then so do their closures, and
only the names count that the roots lead to.

* `Fault.KeepsAbsence` — a rewording does not mistake a fault for a class that is not there;
* `ClassSource.AnswersLike` — the answers for a name are the same up to a rewording;
* `ClassSource.mapError_lineage`, `Stage.Step.of_answersLike`, `Stage.Fails.of_answersLike` — hence so
  are the lineages, the steps of a stage and its faults;
* `ClassSource.mapError_closure` — and the closures.
-/

/-- A rewording of faults keeps the one that a class is not there apart from all others. -/
def Fault.KeepsAbsence (reword : Fault → Fault) : Prop :=
  ∀ fault m, reword fault = .classNotFound m ↔ fault = .classNotFound m

variable {reword : Fault → Fault}

namespace ClassSource

variable {source other : ClassSource} {roots : List ClassName} {n : ClassName}

/-- The sources give the same answer for a name, up to a rewording of faults. -/
def AnswersLike (reword : Fault → Fault) (source other : ClassSource) (n : ClassName) : Prop :=
  (other.find n).mapError reword = (source.find n).mapError reword

/-- A class that is not there is not there in other words. -/
theorem AnswersLike.lacks (h : AnswersLike reword source other n) (hw : Fault.KeepsAbsence reword)
    (hn : source.Lacks n) : other.Lacks n := by
  obtain ⟨m, hm⟩ := hn
  obtain ⟨fault, hf, hr⟩ := exists_error_of_mapError_eq h hm
  rw [(hw _ m).2 rfl, hw] at hr
  exact ⟨m, by rw [hf, hr]⟩

/-- A fault other than that a class is not there remains such a fault. -/
theorem AnswersLike.exists_fault (h : AnswersLike reword source other n)
    (hw : Fault.KeepsAbsence reword) {fault : Fault} (hf : source.find n = .error fault)
    (hl : ∀ m, fault ≠ .classNotFound m) :
    ∃ fault', other.find n = .error fault' ∧ (∀ m, fault' ≠ .classNotFound m)
      ∧ reword fault' = reword fault := by
  obtain ⟨fault', hf', hr⟩ := exists_error_of_mapError_eq h hf
  refine ⟨fault', hf', fun m hm => ?_, hr⟩
  rw [(hw fault' m).2 hm] at hr
  exact hl m ((hw fault m).1 hr.symm)

/-- A walk through names that are answered alike comes to the same. -/
theorem mapError_lineage (hw : Fault.KeepsAbsence reword) {S : ClassName → Prop}
    (hS : ∀ {a c}, S a → source.find a = .ok c → ∀ b ∈ c.ancestors, S b)
    (h : ∀ a, S a → AnswersLike reword source other a) (barred : ClassName → Bool)
    {stack : List ClassName} (hs : ∀ a ∈ stack, S a) :
    (other.lineage barred stack).mapError reword
      = (source.lineage barred stack).mapError reword := by
  -- By the recursion over one source. The other one answers each name in the same way, so that it
  -- takes the same branch.
  fun_induction lineage source barred stack with
  | case1 barred => rw [lineage_nil]
  | case2 barred n rest hb ih =>
    rw [lineage_cons_of_barred hb]
    exact ih fun m hm => hs m (List.mem_cons_of_mem _ hm)
  | case3 barred n rest hb c hc ih =>
    have hn : S n := hs n (List.mem_cons_self ..)
    rw [lineage_cons_of_find (by simpa using hb) (eq_ok_of_mapError_eq (h n hn) hc)]
    refine mapError_map (ih fun m hm => ?_)
    rcases List.mem_append.1 hm with hm | hm
    · exact hS hn hc m hm
    · exact hs m (List.mem_cons_of_mem _ hm)
  | case4 barred n rest hb k hk ih =>
    have hlacks : other.Lacks n := (h n (hs n (List.mem_cons_self ..))).lacks hw ⟨k, hk⟩
    rw [lineage_cons_of_lacks (by simpa using hb) hlacks]
    exact ih fun m hm => hs m (List.mem_cons_of_mem _ hm)
  | case5 barred n rest hb fault hl hf =>
    obtain ⟨fault', hf', hl', hr⟩ := (h n (hs n (List.mem_cons_self ..))).exists_fault hw hf hl
    rw [lineage_cons_of_error (by simpa using hb) hf' hl']
    exact congrArg Except.error hr

end ClassSource

namespace Stage

open ClassSource

variable {source other : ClassSource} {roots : List ClassName} {s t : Stage}

/-- The lineages that a pass comes to are those of names that its roots lead to. -/
theorem mapError_lineage_of_reached (hw : Fault.KeepsAbsence reword)
    (h : ∀ n, source.Reached roots n → AnswersLike reword source other n) {n : ClassName}
    {c : ClassFile} (hn : source.Reached roots n) (hc : source.find n = .ok c)
    (barred : ClassName → Bool) : (other.lineage barred c.ancestors).mapError reword
      = (source.lineage barred c.ancestors).mapError reword :=
  mapError_lineage hw (fun ha hd _ hb => .ancestor ha hd hb) h barred
    fun _ hm => .ancestor hn hc hm

/-- Sources that answer alike take the same steps. -/
theorem Step.of_answersLike (hw : Fault.KeepsAbsence reword)
    (h : ∀ n, source.Reached roots n → AnswersLike reword source other n)
    (hs : ∀ n, s.Lists n → source.Reached roots n) (hst : Step source roots s t) :
    Step other roots s t := by
  cases hst with
  | drop hn hr => exact .drop ((h _ (hs _ (.inr (List.mem_cons_self ..)))).lacks hw hn) hr
  | settle hc hl hr =>
    have hn := hs _ (.inr (List.mem_cons_self ..))
    exact .settle (eq_ok_of_mapError_eq (h _ hn) hc)
      (eq_ok_of_mapError_eq (mapError_lineage_of_reached hw h hn hc _) hl) hr

/-- Sources that answer alike are searched through the same stages. -/
theorem Steps.of_answersLike (hw : Fault.KeepsAbsence reword)
    (h : ∀ n, source.Reached roots n → AnswersLike reword source other n)
    (hs : Steps source roots (start roots) s) : Steps other roots (start roots) s := by
  induction hs with
  | refl => exact .refl
  | tail hsteps ht ih => exact ih.tail (ht.of_answersLike hw h (Steps.reached hsteps))

theorem Fails.of_answersLike (hw : Fault.KeepsAbsence reword)
    (h : ∀ n, source.Reached roots n → AnswersLike reword source other n)
    (hs : ∀ n, s.Lists n → source.Reached roots n) {fault : Fault}
    (hf : Fails source roots s fault) :
    ∃ fault', Fails other roots s fault' ∧ reword fault' = reword fault := by
  -- Each way to fail is one of the other source, too.
  cases hf with
  | missingRoot hn hr =>
    have hlike := h _ (hs _ (.inr (List.mem_cons_self ..)))
    exact ⟨_, .missingRoot (hlike.lacks hw hn) hr, rfl⟩
  | found hf hl =>
    have hlike := h _ (hs _ (.inr (List.mem_cons_self ..)))
    obtain ⟨fault', hf', hl', hr⟩ := hlike.exists_fault hw hf hl
    exact ⟨fault', .found hf' hl', hr⟩
  | lineage hc hl =>
    have hn := hs _ (.inr (List.mem_cons_self ..))
    obtain ⟨fault', hl', hr⟩ :=
      exists_error_of_mapError_eq (mapError_lineage_of_reached hw h hn hc _) hl
    exact ⟨fault', .lineage (eq_ok_of_mapError_eq (h _ hn) hc) hl', hr⟩
  | referenced hc hl hr =>
    have hn := hs _ (.inr (List.mem_cons_self ..))
    exact ⟨_, .referenced (eq_ok_of_mapError_eq (h _ hn) hc)
      (eq_ok_of_mapError_eq (mapError_lineage_of_reached hw h hn hc _) hl) hr, rfl⟩

end Stage

namespace ClassSource

variable {source other : ClassSource} {roots : List ClassName}

/-- **Closures over sources that answer alike.** If two sources give the same answers up to a rewording
    of faults for all names that the roots lead to in one of them, they have the same closure or the
    same fault up to the rewording. -/
theorem mapError_closure (hw : Fault.KeepsAbsence reword)
    (h : ∀ n, source.Reached roots n → AnswersLike reword source other n) :
    (other.closure roots).mapError reword = (source.closure roots).mapError reword := by
  cases hc : source.closure roots with
  | ok out =>
    rw [closure_eq_ok_iff.2 ((steps_of_closure hc).of_answersLike hw h)]
  | error fault =>
    obtain ⟨s, hs, hf⟩ := exists_fails_of_closure hc
    obtain ⟨fault', hf', hr⟩ := hf.of_answersLike hw h hs.reached
    -- The plain run of the other source tells that it has no other outcome than this fault.
    have htidy := Stage.tidy_start roots
    have hs' := hs.of_answersLike hw h
    have hrun : Stage.run other roots (Stage.start roots) = .error fault' := by
      rw [hs'.run_eq htidy, hf'.run_eq (hs'.tidy htidy)]
    cases hc' : other.closure roots with
    | ok out =>
      rw [(steps_of_closure hc').run_eq htidy, Stage.run_nil] at hrun
      simp at hrun
    | error fault'' =>
      obtain ⟨t, ht, hg⟩ := exists_fails_of_closure hc'
      rw [ht.run_eq htidy, hg.run_eq (ht.tidy htidy)] at hrun
      obtain rfl := Except.error.inj hrun
      exact congrArg Except.error hr

end ClassSource

end PrimaryDex
