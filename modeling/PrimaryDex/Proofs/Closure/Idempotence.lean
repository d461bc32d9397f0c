import PrimaryDex.Proofs.Closure.Reachability

namespace PrimaryDex

open Relation

/-!
# The closure of a closure

Taken as roots, a closure is its own closure, in the same order. The two passes are compared stage
by stage. They resolve the same classes, but their queues differ: the second one starts with the
whole closure pending, and what it enqueues later is missing.

* `Stage.Shadows` — the queue of the second pass begins with the same promoted classes as that of
  the first, and behind them it holds what is yet to be resolved;
* `Stage.Steps.of_shadows` — so the second pass ends with the same list;
* `ClassSource.closure_closure` — hence the closure of a closure.
-/

namespace Stage

variable {source : ClassSource} {roots : List ClassName}

/-- The queue of a second pass, with `front` promoted and `ahead` yet to be resolved: `back` holds
    `ahead` in order, apart from what is in front, among names that the source lacks. -/
structure Shadows (source : ClassSource) (ahead front back : List ClassName) : Prop where
  has_front : ∀ n ∈ front, source.Has n
  has_or_lacks : ∀ n ∈ back, source.Has n ∨ source.Lacks n
  filter_has : back.filter (source.Has ·) = ahead.filter (· ∉ front)

/-- What is ahead is in the queue of the second pass as well. -/
theorem Shadows.mem_of_mem_ahead {ahead front back : List ClassName}
    (h : Shadows source ahead front back) {m : ClassName} (hm : m ∈ ahead) : m ∈ front ++ back := by
  by_cases hf : m ∈ front
  · exact List.mem_append_left _ hf
  · have hm' : m ∈ ahead.filter (· ∉ front) := List.mem_filter.2 ⟨hm, by simpa using hf⟩
    rw [← h.filter_has] at hm'
    exact List.mem_append_right _ (List.mem_of_mem_filter hm')

/-- Resolving a promoted class leaves the back of the queue as it is. -/
theorem Shadows.tail {ahead front back : List ClassName} {n : ClassName}
    (h : Shadows source (n :: ahead) (n :: front) back) (hn : n ∉ ahead) :
    Shadows source ahead front back := by
  refine ⟨fun m hm => h.has_front m (List.mem_cons_of_mem _ hm), h.has_or_lacks, ?_⟩
  rw [h.filter_has, List.filter_cons_of_neg (by simp)]
  refine List.filter_congr fun m hm => ?_
  have hmn : m ≠ n := fun he => hn (he ▸ hm)
  simp [hmn]

/-- With nothing promoted, the next class to be resolved follows names that are not there. -/
theorem Shadows.exists_missing {ahead back : List ClassName} {n : ClassName}
    (h : Shadows source (n :: ahead) [] back) :
    ∃ missing rest, back = missing ++ n :: rest ∧ (∀ m ∈ missing, source.Lacks m)
      ∧ Shadows source ahead [] rest := by
  have hf : back.filter (source.Has ·) = n :: ahead := by
    rw [h.filter_has, List.filter_eq_self]
    simp
  obtain ⟨missing, rest, rfl, hm, -, hr⟩ := List.filter_eq_cons_iff.1 hf
  refine ⟨missing, rest, rfl, fun m hm' => ?_, by simp, fun m hm' => ?_, ?_⟩
  · exact (h.has_or_lacks m (List.mem_append_left _ hm')).resolve_left (by simpa using hm m hm')
  · exact h.has_or_lacks m (List.mem_append_right _ (List.mem_cons_of_mem _ hm'))
  · rw [hr, eq_comm, List.filter_eq_self]
    simp

/-- Promoting a lineage and enqueuing missing names keeps the two queues alike. -/
theorem Shadows.settle {ahead front back lineage added : List ClassName}
    (h : Shadows source ahead front back) (hl : ∀ m ∈ lineage, source.Has m)
    (ha : ∀ m ∈ added, source.Lacks m) :
    Shadows source ahead (lineage.reverse ++ front.filter (· ∉ lineage))
      (back.filter (· ∉ lineage) ++ added) := by
  refine ⟨fun m hm => ?_, fun m hm => ?_, ?_⟩
  · rcases List.mem_append.1 hm with hm | hm
    · exact hl m (List.mem_reverse.1 hm)
    · exact h.has_front m (List.mem_of_mem_filter hm)
  · rcases List.mem_append.1 hm with hm | hm
    · exact h.has_or_lacks m (List.mem_of_mem_filter hm)
    · exact .inr (ha m hm)
  · -- What is added to the back only is not there, so that it does not show ahead.
    have hadd : added.filter (source.Has ·) = [] := by
      rw [List.filter_eq_nil_iff]
      exact fun m hm hm' => (of_decide_eq_true hm').not_lacks (ha m hm)
    calc (back.filter (· ∉ lineage) ++ added).filter (source.Has ·)
        = (back.filter (source.Has ·)).filter (· ∉ lineage) := by
          rw [List.filter_append, hadd, List.append_nil, List.filter_filter, List.filter_filter]
          exact List.filter_congr fun m _ => Bool.and_comm ..
      _ = ahead.filter (· ∉ lineage.reverse ++ front.filter (· ∉ lineage)) := by
          rw [h.filter_has, List.filter_filter]
          refine List.filter_congr fun m _ => ?_
          by_cases hm : m ∈ lineage <;> simp [hm]

/-- Settling the same class in both passes promotes the same lineage. What the second one enqueues
    is missing: all other references are listed already. -/
theorem Shadows.exists_settle {resolved ahead front back lineage referenced : List ClassName}
    {n : ClassName} {c : ClassFile} (h : Shadows source ahead front back)
    (hl : source.lineage (resolved ++ [n]).contains c.ancestors = .ok lineage)
    (href : ∀ m ∈ referenced, m ∈ resolved ++ [n] ∨ m ∈ ahead ∨ source.Lacks m)
    (rest : List ClassName) :
    ∃ front' rest' back',
      Stage.settle ⟨resolved, front ++ rest⟩ n lineage referenced
        = ⟨resolved ++ [n], front' ++ rest'⟩
      ∧ Stage.settle ⟨resolved, front ++ back⟩ n lineage referenced
        = ⟨resolved ++ [n], front' ++ back'⟩
      ∧ Shadows source ahead front' back' := by
  obtain ⟨added, hfirst, -⟩ := exists_settle_append_eq resolved front rest n lineage referenced
  obtain ⟨added', hsecond, hadd⟩ :=
    exists_settle_append_eq resolved front back n lineage referenced
  have hlacks : ∀ m ∈ added', source.Lacks m := by
    intro m hm
    obtain ⟨hm, hmr, -, hmq⟩ := (hadd m).1 hm
    have hm' := (href m hm).resolve_left hmr
    exact hm'.resolve_left fun hma => hmq (h.mem_of_mem_ahead hma)
  have hhas := fun m hm => (ClassSource.free_of_mem_lineage hl m hm).1
  exact ⟨_, _, _, hfirst, hsecond, h.settle hhas hlacks⟩

/-- Names in front of the queue that the source lacks are dropped. -/
theorem steps_drop (resolved rest : List ClassName) {missing : List ClassName}
    (h : ∀ n ∈ missing, source.Lacks n ∧ n ∉ roots) :
    Steps source roots ⟨resolved, missing ++ rest⟩ ⟨resolved, rest⟩ := by
  induction missing with
  | nil => exact .refl
  | cons n missing ih =>
    obtain ⟨hn, hr⟩ := h n (List.mem_cons_self ..)
    exact .head (.drop hn hr) (ih fun m hm => h m (List.mem_cons_of_mem _ hm))

/-! ### Two passes in step -/

/-- A second pass whose queue shadows a first one comes to the same next class. -/
theorem exists_steps_of_shadows (resolved : List ClassName)
    {ahead front back back' rest : List ClassName} {n : ClassName}
    (hr : ∀ m, source.Lacks m → m ∉ roots) (hn : n ∉ ahead)
    (hq : front ++ back = n :: rest) (hsh : Shadows source (n :: ahead) front back') :
    ∃ front' rest' back'', rest = front' ++ rest' ∧ Shadows source ahead front' back''
      ∧ Steps source roots ⟨resolved, front ++ back'⟩ ⟨resolved, n :: (front' ++ back'')⟩ := by
  cases front with
  | nil =>
    -- The second queue may hold missing names before `n`, which it drops first.
    obtain ⟨missing, back'', rfl, hm, hsh'⟩ := hsh.exists_missing
    have hdrop := steps_drop resolved (n :: back'') fun m hm' => ⟨hm m hm', hr m (hm m hm')⟩
    exact ⟨[], rest, back'', rfl, hsh', hdrop⟩
  | cons k front =>
    obtain ⟨rfl, rfl⟩ := List.cons.inj hq
    exact ⟨front, back, back', rfl, hsh.tail hn, .refl⟩

/-- **Simulation.** If a pass comes to its end from a stage, then so does a second pass, which has
    the end for its roots, from a stage with the same resolved classes whose queue shadows the
    first. -/
theorem Steps.of_shadows {out resolved ahead front back back' : List ClassName}
    (h : Steps source roots ⟨resolved, front ++ back⟩ ⟨out, []⟩) (hnd : out.Nodup)
    (hhas : ∀ n ∈ out, source.Has n)
    (href : ∀ n ∈ out, ∀ c ns, source.find n = .ok c → c.referenced = .ok ns →
      ∀ m ∈ ns, m ∈ out ∨ source.Lacks m)
    (hout : out = resolved ++ ahead) (hsh : Shadows source ahead front back') :
    Steps source out ⟨resolved, front ++ back'⟩ ⟨out, []⟩ := by
  have hroot : ∀ m, source.Lacks m → m ∉ out := fun m hm hm' => (hhas m hm').not_lacks hm
  generalize hs : (⟨resolved, front ++ back⟩ : Stage) = s at h
  -- The induction is on the steps of the first pass; the second one has yet to make its own.
  induction h using ReflTransGen.head_induction_on generalizing resolved ahead front back back' with
  | refl =>
    obtain ⟨rfl, hq⟩ := mk.inj hs
    obtain ⟨rfl, -⟩ := List.append_eq_nil_iff.1 hq
    obtain rfl : ahead = [] := by simpa using hout
    have hback : ∀ m ∈ back', source.Lacks m := fun m hm => by
      have hm' := List.filter_eq_nil_iff.1 hsh.filter_has m hm
      exact (hsh.has_or_lacks m hm).resolve_left (by simpa using hm')
    have hdrop := steps_drop resolved [] fun m hm => ⟨hback m hm, hroot m (hback m hm)⟩
    simpa using hdrop
  | head hst hsteps ih =>
    cases hst with
    | drop hn hr =>
      -- The second pass stands still: what the first one drops is not promoted.
      obtain ⟨rfl, hq⟩ := mk.inj hs
      cases front with
      | nil => exact ih hout hsh rfl
      | cons k front =>
        obtain ⟨rfl, -⟩ := List.cons.inj hq
        exact absurd hn (hsh.has_front k (List.mem_cons_self ..)).not_lacks
    | @settle n _ rest lineage referenced c hc hl hr =>
      obtain ⟨rfl, hq⟩ := mk.inj hs
      have hpre := Steps.resolved_prefix hsteps
      rw [resolved_settle, hout, List.prefix_append_right_inj] at hpre
      obtain ⟨ahead, rfl⟩ := hpre
      rw [List.singleton_append] at hout hsh
      have hna : n ∉ ahead := fun hm => by
        rw [hout, List.nodup_append] at hnd
        exact (List.nodup_cons.1 hnd.2.1).1 hm
      obtain ⟨front, rest, back, rfl, hsh, hsteps'⟩ :=
        exists_steps_of_shadows resolved hroot hna hq hsh
      have hout' : out = (resolved ++ [n]) ++ ahead := hout.trans (List.append_cons ..)
      have href' : ∀ m ∈ referenced, m ∈ resolved ++ [n] ∨ m ∈ ahead ∨ source.Lacks m := by
        intro m hm
        rw [← or_assoc, ← List.mem_append, ← hout']
        exact href n (by simp [hout]) c referenced hc hr m hm
      obtain ⟨front', rest', back', hfirst, hsecond, hsh'⟩ := hsh.exists_settle hl href' rest
      have hend := ih hout' hsh' hfirst.symm
      rw [← hsecond] at hend
      exact hsteps'.trans (.head (.settle hc hl hr) hend)

end Stage

namespace ClassSource

open Sample (app api base helper)

variable {source : ClassSource} {roots out : List ClassName}

/-- **The closure of a closure** is itself, in the same order. -/
theorem closure_closure (h : source.closure roots = .ok out) : source.closure out = .ok out := by
  have hnd := nodup_closure h
  have hhas := has_of_closure h
  have href : ∀ n ∈ out, ∀ c ns, source.find n = .ok c → c.referenced = .ok ns →
      ∀ m ∈ ns, m ∈ out ∨ source.Lacks m := fun n hn c ns hc hr m hm =>
    mem_or_lacks_of_closure h (.reference ((mem_closure_iff h).1 hn).1 hc hr hm)
  have hsh : Stage.Shadows source out [] out := by
    refine ⟨by simp, fun n hn => .inl (hhas n hn), ?_⟩
    rw [List.filter_eq_self.2 (by simpa using hhas), eq_comm, List.filter_eq_self]
    simp
  have hfirst : Stage.Steps source roots ⟨[], [] ++ (Stage.start roots).pending⟩ ⟨out, []⟩ := by
    rw [List.nil_append, ← Stage.start_eq]
    exact steps_of_closure h
  rw [closure_eq_ok_iff, Stage.start_of_nodup hnd]
  exact hfirst.of_shadows hnd hhas href rfl hsh

/-- The ancestors of the first root have moved in front of the second one, and stay there. -/
theorem closure_closure_app :
    Sample.source.closure [app, helper, base] = .ok [app, api, base, helper]
      ∧ Sample.source.closure [app, api, base, helper] = .ok [app, api, base, helper] :=
  ⟨Sample.closure_app, closure_closure Sample.closure_app⟩

end ClassSource

end PrimaryDex
