import Mathlib.Order.Bounds.Basic
import PrimaryDex.Proofs.Closure.Coherence

namespace PrimaryDex

/-!
# What a closure holds

* `ClassSource.Reached` — the names that the roots lead to through ancestors and references;
* `Stage.Covers` — what is resolved mentions only what is resolved, pending or not there. Each step
  keeps it (`Step.covers`);
* `ClassSource.mem_closure_iff` — a closure holds exactly the reached classes that the source has;
* `ClassSource.closure_isLeast` — these are the least set that holds the roots and is closed;
* `ClassSource.closure_tolerates` — what a closure tolerates, and which faults it has otherwise.
-/

namespace ClassSource

variable {source : ClassSource} {roots : List ClassName}

/-- The names that some roots lead to. Only a class that the source has leads any further. -/
inductive Reached (source : ClassSource) (roots : List ClassName) : ClassName → Prop where
  | root {r : ClassName} (hr : r ∈ roots) : Reached source roots r
  | ancestor {n m : ClassName} {c : ClassFile} (hn : Reached source roots n)
      (hc : source.find n = .ok c) (hm : m ∈ c.ancestors) : Reached source roots m
  | reference {n m : ClassName} {c : ClassFile} {ns : List ClassName} (hn : Reached source roots n)
      (hc : source.find n = .ok c) (hr : c.referenced = .ok ns) (hm : m ∈ ns) :
      Reached source roots m

/-- A set of classes that holds the roots and, with a class, those of its ancestors and of its
    references that the source has. -/
structure Closed (source : ClassSource) (roots : List ClassName) (S : Set ClassName) : Prop where
  roots_subset : ∀ r ∈ roots, r ∈ S
  ancestors_subset : ∀ {n c}, n ∈ S → source.find n = .ok c →
    ∀ m ∈ c.ancestors, source.Has m → m ∈ S
  references_subset : ∀ {n c ns}, n ∈ S → source.find n = .ok c → c.referenced = .ok ns →
    ∀ m ∈ ns, source.Has m → m ∈ S

/-- The source has all roots, it has or lacks whatever they lead to, and the references of each
    class among that can be read. -/
structure Tolerable (source : ClassSource) (roots : List ClassName) : Prop where
  has_root : ∀ r ∈ roots, source.Has r
  has_or_lacks : ∀ n, source.Reached roots n → source.Has n ∨ source.Lacks n
  referenced : ∀ n c, source.Reached roots n → source.find n = .ok c →
    ∃ ns, c.referenced = .ok ns

/-- The fault of a class that is there, but cannot be read or refers to something in a wrong way. -/
def Faulty (source : ClassSource) (n : ClassName) (fault : Fault) : Prop :=
  (source.find n = .error fault ∧ ∀ m, fault ≠ .classNotFound m)
    ∨ ∃ c, source.find n = .ok c ∧ c.referenced = .error fault

/-- A class that is not there has no fault. -/
theorem Lacks.not_faulty {n : ClassName} {fault : Fault} (h : source.Lacks n) :
    ¬ source.Faulty n fault := by
  obtain ⟨m, hm⟩ := h
  rintro (⟨hf, hl⟩ | ⟨c, hc, -⟩)
  · exact hl m (Except.error.inj (hf.symm.trans hm))
  · simp [hm] at hc

/-- A class that is there and whose references are read has no fault either. -/
theorem not_faulty_of_referenced {n : ClassName} {c : ClassFile} {ns : List ClassName}
    {fault : Fault} (hc : source.find n = .ok c) (hr : c.referenced = .ok ns) :
    ¬ source.Faulty n fault := by
  rintro (⟨hf, -⟩ | ⟨d, hd, hf⟩)
  · simp [hc] at hf
  · obtain rfl := Except.ok.inj (hc.symm.trans hd)
    simp [hr] at hf

/-- A closed set holds whatever the source has of what the roots lead to. -/
theorem Closed.mem_of_reached {S : Set ClassName} (hS : source.Closed roots S) {n : ClassName}
    (hn : source.Reached roots n) (h : source.Has n) : n ∈ S := by
  -- Each class on the chain from a root is there, so the set holds it and passes it on.
  induction hn with
  | root hr => exact hS.roots_subset _ hr
  | ancestor _ hc hm ih => exact hS.ancestors_subset (ih ⟨_, hc⟩) hc _ hm h
  | reference _ hc hr hm ih => exact hS.references_subset (ih ⟨_, hc⟩) hc hr _ hm h

end ClassSource

namespace Stage

variable {source : ClassSource} {roots : List ClassName}

/-- The class is resolved or pending. -/
def Lists (s : Stage) (n : ClassName) : Prop := n ∈ s.resolved ∨ n ∈ s.pending

/-- The roots are listed at the start. -/
theorem lists_start {r : ClassName} (hr : r ∈ roots) : (start roots).Lists r :=
  .inr (mem_foldl_enqueue.2 (.inr ⟨hr, by simp⟩))

/-- At the start nothing but the roots is listed. -/
theorem mem_of_lists_start {n : ClassName} (h : (start roots).Lists n) : n ∈ roots := by
  rcases h with h | h
  · simp [start] at h
  · exact (mem_foldl_enqueue.1 h).elim (by simp) (·.1)

/-- What is listed once a class was settled. -/
theorem lists_settle {n m : ClassName} {resolved rest lineage referenced : List ClassName} :
    (settle ⟨resolved, rest⟩ n lineage referenced).Lists m
      ↔ Lists ⟨resolved, n :: rest⟩ m ∨ m ∈ lineage ∨ m ∈ referenced := by
  simp only [Lists, settle, resolved_foldl_enqueue, resolved_promote, mem_foldl_enqueue,
    mem_promote, List.mem_append, List.mem_cons]
  -- What remains is to sort the four lists.
  grind

/-! ### Nothing else is listed -/

/-- Each step lists only names that the roots lead to, and resolves only classes that are there. -/
theorem Step.reached {s t : Stage} (h : Step source roots s t)
    (hs : ∀ n, s.Lists n → source.Reached roots n) : ∀ n, t.Lists n → source.Reached roots n := by
  cases h with
  | drop hn hr => exact fun m hm => hs m (hm.imp_right (List.mem_cons_of_mem _))
  | @settle n resolved rest lineage referenced c hc hl hr =>
    have hn : source.Reached roots n := hs n (.inr (List.mem_cons_self ..))
    intro m hm
    rcases lists_settle.1 hm with hm | hm | hm
    · exact hs m hm
    · exact ClassSource.forall_mem_lineage hl (fun a ha => .ancestor hn hc ha)
        (fun ha _ hc' b hb => .ancestor ha hc' hb) m hm
    · exact .reference hn hc hr hm

/-- **Soundness of the steps.** Whatever a stage lists that comes after the start is reached from
    the roots. -/
theorem Steps.reached {s : Stage} (h : Steps source roots (start roots) s) :
    ∀ n, s.Lists n → source.Reached roots n := by
  induction h with
  | refl => exact fun n hn => .root (mem_of_lists_start hn)
  | tail _ ht ih => exact ht.reached ih

/-- A stage fails over a missing root, or with the fault of a class that its first pending class leads
    up to. -/
theorem Fails.exists_faulty {resolved rest : List ClassName} {n : ClassName} {fault : Fault}
    (h : Fails source roots ⟨resolved, n :: rest⟩ fault) {S : ClassName → Prop} (hn : S n)
    (hS : ∀ {a c}, S a → source.find a = .ok c → ∀ b ∈ c.ancestors, S b) :
    (n ∈ roots ∧ source.Lacks n ∧ fault = .missingRoot n) ∨ ∃ m, S m ∧ source.Faulty m fault := by
  cases h with
  | missingRoot hl hr => exact .inl ⟨hr, hl, rfl⟩
  | found hf hl => exact .inr ⟨n, hn, .inl ⟨hf, hl⟩⟩
  | lineage hc hl =>
    obtain ⟨m, hm, hf⟩ :=
      ClassSource.exists_of_lineage_eq_error hl (hS hn hc) fun ha _ hd => hS ha hd
    exact .inr ⟨m, hm, .inl hf⟩
  | referenced hc _ hr => exact .inr ⟨n, hn, .inr ⟨_, hc, hr⟩⟩

/-- A stage that comes after the start fails over a missing root, or with the fault of a class that
    is reached. -/
theorem Fails.reached {s : Stage} {fault : Fault} (h : Fails source roots s fault)
    (hs : ∀ n, s.Lists n → source.Reached roots n) :
    (∃ r ∈ roots, source.Lacks r ∧ fault = .missingRoot r)
      ∨ ∃ n, source.Reached roots n ∧ source.Faulty n fault := by
  obtain ⟨resolved, _ | ⟨n, rest⟩⟩ := s
  · cases h
  · exact (h.exists_faulty (hs n (.inr (List.mem_cons_self ..)))
      fun ha hc b hb => .ancestor ha hc hb).imp_left fun hr => ⟨n, hr⟩

/-! ### Nothing is left out -/

/-- The roots are listed, and what is resolved mentions only what is listed or not there. -/
structure Covers (source : ClassSource) (roots : List ClassName) (s : Stage) : Prop where
  lists_root : ∀ r ∈ roots, s.Lists r
  resolved : ∀ n ∈ s.resolved, ∃ c ns, source.find n = .ok c ∧ c.referenced = .ok ns
    ∧ ∀ m, m ∈ c.ancestors ∨ m ∈ ns → s.Lists m ∨ source.Lacks m

/-- What is dropped is no root, and whoever mentions it mentions a name that is not there. -/
theorem Covers.drop {n : ClassName} {resolved rest : List ClassName} (hn : source.Lacks n)
    (hr : n ∉ roots) (h : Covers source roots ⟨resolved, n :: rest⟩) :
    Covers source roots ⟨resolved, rest⟩ := by
  have lists_of {m : ClassName} (hm : Lists ⟨resolved, n :: rest⟩ m) :
      m = n ∨ Lists ⟨resolved, rest⟩ m := by
    rcases hm with hm | hm
    · exact .inr (.inl hm)
    · exact (List.mem_cons.1 hm).imp_right .inr
  refine ⟨fun r hr' => ?_, fun k hk => ?_⟩
  · exact (lists_of (h.lists_root r hr')).resolve_left fun he => hr (he ▸ hr')
  · obtain ⟨c, ns, hc, hns, hm⟩ := h.resolved k hk
    refine ⟨c, ns, hc, hns, fun m hm' => ?_⟩
    rcases hm m hm' with hl | hl
    · exact (lists_of hl).elim (fun he => .inr (he ▸ hn)) .inl
    · exact .inr hl

/-- What is settled mentions its lineage and its references, which are listed then. An ancestor that
    the ascent did not enter is barred, thus resolved, or not there. -/
theorem Covers.settle {n : ClassName} {resolved rest lineage referenced : List ClassName}
    {c : ClassFile} (hc : source.find n = .ok c)
    (hl : source.lineage (resolved ++ [n]).contains c.ancestors = .ok lineage)
    (hr : c.referenced = .ok referenced) (h : Covers source roots ⟨resolved, n :: rest⟩) :
    Covers source roots (Stage.settle ⟨resolved, rest⟩ n lineage referenced) := by
  have lists_of {m : ClassName} (hm : Lists ⟨resolved, n :: rest⟩ m) :
      (Stage.settle ⟨resolved, rest⟩ n lineage referenced).Lists m := lists_settle.2 (.inl hm)
  refine ⟨fun r hr' => lists_of (h.lists_root r hr'), fun k hk => ?_⟩
  rw [resolved_settle] at hk
  rcases List.mem_append.1 hk with hk | hk
  · obtain ⟨d, ns, hd, hns, hm⟩ := h.resolved k hk
    exact ⟨d, ns, hd, hns, fun m hm' => (hm m hm').imp_left lists_of⟩
  · obtain rfl := List.mem_singleton.1 hk
    -- Of the class itself: its ancestors are in the lineage or were there, and its references are
    -- enqueued.
    refine ⟨c, referenced, hc, hr, fun m hm => ?_⟩
    rcases hm with hm | hm
    · rcases ClassSource.mem_or_lacks_of_lineage hl (.inl hm) with hb | hb | hb
      · have hb' : Lists ⟨resolved, k :: rest⟩ m := by
          rcases List.mem_append.1 hb with hb | hb
          · exact .inl hb
          · exact .inr (List.mem_singleton.1 hb ▸ List.mem_cons_self ..)
        exact .inl (lists_of hb')
      · exact .inl (lists_settle.2 (.inr (.inl hb)))
      · exact .inr hb
    · exact .inl (lists_settle.2 (.inr (.inr hm)))

/-- **Invariant.** A step keeps a stage covered. -/
theorem Step.covers {s t : Stage} (h : Step source roots s t) (hs : s.Covers source roots) :
    t.Covers source roots := by
  cases h with
  | drop hn hr => exact hs.drop hn hr
  | settle hc hl hr => exact hs.settle hc hl hr

/-- Every stage that comes after the start is covered. -/
theorem Steps.covers {s : Stage} (h : Steps source roots (start roots) s) :
    s.Covers source roots := by
  induction h with
  | refl => exact ⟨fun r hr => lists_start hr, by simp [start]⟩
  | tail _ ht ih => exact ht.covers ih

end Stage

/-! ### A small source -/

/-- The source that has some class files and no others. -/
def ClassSource.ofFiles (files : List ClassFile) : ClassSource where
  find n :=
    match files.find? (·.name = n) with
    | some c => .ok c
    | none => .error (.classNotFound n)
  finite := by
    refine ⟨files.flatMap fun c => c.mentions, fun {n c} h m hm => ?_⟩
    split at h
    · rename_i d hd
      rw [Except.ok.injEq] at h
      exact List.mem_flatMap.2 ⟨d, List.mem_of_find?_eq_some hd, h ▸ hm⟩
    · simp at h

/-- Only the given files are found. -/
theorem ClassSource.mem_of_find_ofFiles {files : List ClassFile} {n : ClassName} {c : ClassFile}
    (h : (ofFiles files).find n = .ok c) : c ∈ files := by
  simp only [ofFiles] at h
  split at h
  · rename_i d hd
    rw [Except.ok.injEq] at h
    exact h ▸ List.mem_of_find?_eq_some hd
  · simp at h

theorem ClassSource.name_of_find_ofFiles {files : List ClassFile} {n : ClassName} {c : ClassFile}
    (h : (ofFiles files).find n = .ok c) : c.name = n := by
  simp only [ofFiles] at h
  split at h
  · rename_i d hd
    rw [Except.ok.injEq] at h
    have hname := List.find?_some hd
    rw [← h]
    simpa using hname
  · simp at h

namespace Sample

open ClassSource

def app : ClassName := ⟨"App"⟩
def base : ClassName := ⟨"Base"⟩
def api : ClassName := ⟨"Api"⟩
def helper : ClassName := ⟨"Helper"⟩
def object : ClassName := ⟨"java/lang/Object"⟩

/-- `App` extends `Base` and refers to `Helper`. -/
def appFile : ClassFile :=
  ⟨⟨"App", some base, [], ⟨#[none, some (.utf8 "Helper"), some (.classRef 1)]⟩⟩, app⟩

/-- `Base` implements `Api` and, in a circle, `App`. -/
def baseFile : ClassFile := ⟨⟨"Base", some object, [app, api], ⟨#[]⟩⟩, base⟩

def apiFile : ClassFile := ⟨⟨"Api", some object, [], ⟨#[]⟩⟩, api⟩

def helperFile : ClassFile := ⟨⟨"Helper", some object, [], ⟨#[]⟩⟩, helper⟩

/-- The four classes, without the platform's. -/
def source : ClassSource := .ofFiles [appFile, baseFile, apiFile, helperFile]

/-- The platform's root class is not among the four. -/
theorem lacks_object : source.Lacks object := ⟨object, rfl⟩

/-- The references of `App` come from its constants. -/
theorem referenced_app : appFile.referenced = .ok [helper] := by
  have h : appFile.pool.entries.mapM (fun x => appFile.pool.classesOf x.2)
      = .ok [[], [helper]] := by decide
  simp [ClassFile.referenced, ClassHeader.references, h, firstOccurrences, firstOccurrencesBeyond,
    bind, Except.bind, pure, Except.pure]

/-- Above `App` stand `Base` and, above that, `Api`. The circle ends at `App` itself. -/
theorem lineage_app : source.lineage [app].contains appFile.ancestors = .ok [base, api] := by
  have hb : source.find base = .ok baseFile := rfl
  have ha : source.find api = .ok apiFile := rfl
  simp (disch := decide) [appFile, baseFile, apiFile, ClassHeader.ancestors,
    lineage_cons_of_find _ hb, lineage_cons_of_find _ ha, lineage_cons_of_lacks _ lacks_object,
    lineage_cons_of_barred]

/-- `App` is followed by what it extends and implements, and only then by the root `Helper`. -/
theorem closure_app : source.closure [app, helper, base] = .ok [app, api, base, helper] := by
  have start : Stage.start [app, helper, base] = ⟨[], [app, helper, base]⟩ := by decide
  -- Each step settles the first pending class. Only `App` has a lineage that is not resolved yet.
  have api_step : Stage.Step source [app, helper, base] ⟨[app], [api, base, helper]⟩
      ⟨[app, api], [base, helper]⟩ := by
    have hc : source.find api = .ok apiFile := rfl
    have hl : source.lineage ([app] ++ [api]).contains apiFile.ancestors = .ok [] := by
      simp (disch := decide) [apiFile, ClassHeader.ancestors, lineage_cons_of_lacks _ lacks_object]
    have hr : apiFile.referenced = .ok [] := by decide
    exact .settle hc hl hr
  have base_step : Stage.Step source [app, helper, base] ⟨[app, api], [base, helper]⟩
      ⟨[app, api, base], [helper]⟩ := by
    have hc : source.find base = .ok baseFile := rfl
    have hl : source.lineage ([app, api] ++ [base]).contains baseFile.ancestors = .ok [] := by
      simp (disch := decide) [baseFile, ClassHeader.ancestors, lineage_cons_of_barred,
        lineage_cons_of_lacks _ lacks_object]
    have hr : baseFile.referenced = .ok [] := by decide
    exact .settle hc hl hr
  have helper_step : Stage.Step source [app, helper, base] ⟨[app, api, base], [helper]⟩
      ⟨[app, api, base, helper], []⟩ := by
    have hc : source.find helper = .ok helperFile := rfl
    have hl : source.lineage ([app, api, base] ++ [helper]).contains helperFile.ancestors
        = .ok [] := by
      simp (disch := decide) [helperFile, ClassHeader.ancestors,
        lineage_cons_of_lacks _ lacks_object]
    have hr : helperFile.referenced = .ok [] := by decide
    exact .settle hc hl hr
  rw [closure_eq_ok_iff, start]
  exact .head (.settle rfl lineage_app referenced_app)
    (.head api_step (.head base_step (.single helper_step)))

end Sample

namespace ClassSource

open Sample (app api base helper object)

variable {source : ClassSource} {roots out : List ClassName}

/-- With nothing pending, a name that the roots lead to is resolved or not there. -/
theorem mem_or_lacks_of_closure (h : source.closure roots = .ok out) {n : ClassName}
    (hn : source.Reached roots n) : n ∈ out ∨ source.Lacks n := by
  have hcov := (steps_of_closure h).covers
  have mem_of {m : ClassName} (hm : Stage.Lists ⟨out, []⟩ m) : m ∈ out := hm.resolve_right (by simp)
  have ancestor_or_reference {k m : ClassName} {c : ClassFile} (hk : k ∈ out ∨ source.Lacks k)
      (hc : source.find k = .ok c)
      (hm : m ∈ c.ancestors ∨ ∃ ns, c.referenced = .ok ns ∧ m ∈ ns) : m ∈ out ∨ source.Lacks m := by
    obtain ⟨d, ns, hd, hns, hm'⟩ := hcov.resolved k (hk.resolve_right (Has.not_lacks ⟨c, hc⟩))
    obtain rfl := Except.ok.inj (hc.symm.trans hd)
    refine (hm' m (hm.imp_right ?_)).imp_left mem_of
    rintro ⟨ns', hns', hm⟩
    exact Except.ok.inj (hns'.symm.trans hns) ▸ hm
  -- The induction is along the chain from a root; each class on it is there, hence in `out`.
  induction hn with
  | root hr => exact .inl (mem_of (hcov.lists_root _ hr))
  | ancestor _ hc hm ih => exact ancestor_or_reference ih hc (.inl hm)
  | reference _ hc hr hm ih => exact ancestor_or_reference ih hc (.inr ⟨_, hr, hm⟩)

/-- **Exactly what is reached.** A closure holds the classes that the source has among the names
    that the roots lead to. -/
theorem mem_closure_iff (h : source.closure roots = .ok out) {n : ClassName} :
    n ∈ out ↔ source.Reached roots n ∧ source.Has n := by
  have hsteps := steps_of_closure h
  constructor
  · intro hn
    obtain ⟨c, -, hc, -⟩ := hsteps.covers.resolved n hn
    exact ⟨hsteps.reached n (.inl hn), c, hc⟩
  · rintro ⟨hn, hn'⟩
    exact (mem_or_lacks_of_closure h hn).resolve_right hn'.not_lacks

/-- A closure lists no class twice. -/
theorem nodup_closure (h : source.closure roots = .ok out) : out.Nodup :=
  ((steps_of_closure h).tidy (Stage.tidy_start roots)).nodup_resolved

/-- A closure lists only classes that the source has. -/
theorem has_of_closure (h : source.closure roots = .ok out) : ∀ n ∈ out, source.Has n :=
  fun _ hn => ((mem_closure_iff h).1 hn).2

/-- A closure lists all roots. -/
theorem roots_subset_closure (h : source.closure roots = .ok out) : ∀ r ∈ roots, r ∈ out :=
  fun r hr => ((steps_of_closure h).covers.lists_root r hr).resolve_right (by simp)

/-- **Soundness and completeness.** A closure lists once each class of the least set that holds the
    roots and, with a class, those of its ancestors and references that the source has. -/
theorem closure_isLeast (h : source.closure roots = .ok out) :
    out.Nodup ∧ IsLeast {S | source.Closed roots S} {n | n ∈ out} := by
  refine ⟨nodup_closure h, ⟨roots_subset_closure h, ?_, ?_⟩, fun S hS n hn => ?_⟩
  · intro n c hn hc m hm hm'
    have hn' := ((mem_closure_iff h).1 hn).1
    exact (mem_closure_iff h).2 ⟨.ancestor hn' hc hm, hm'⟩
  · intro n c ns hn hc hr m hm hm'
    have hn' := ((mem_closure_iff h).1 hn).1
    exact (mem_closure_iff h).2 ⟨.reference hn' hc hr hm, hm'⟩
  · obtain ⟨hr, hn'⟩ := (mem_closure_iff h).1 hn
    exact hS.mem_of_reached hr hn'

/-- The least set that holds the three roots has a fourth class, an ancestor. -/
theorem closure_isLeast_app :
    Sample.source.closure [app, helper, base] = .ok [app, api, base, helper]
      ∧ [app, api, base, helper].Nodup
      ∧ IsLeast {S | Sample.source.Closed [app, helper, base] S}
          {n | n ∈ [app, api, base, helper]} :=
  ⟨Sample.closure_app, closure_isLeast Sample.closure_app⟩

/-! ### What is tolerated -/

/-- Where there is a closure, all that is reached can be tolerated. -/
theorem tolerable_of_closure (h : source.closure roots = .ok out) : source.Tolerable roots := by
  refine ⟨fun r hr => has_of_closure h r (roots_subset_closure h r hr), fun n hn => ?_,
    fun n c hn hc => ?_⟩
  · exact (mem_or_lacks_of_closure h hn).imp_left (has_of_closure h n)
  · obtain ⟨d, ns, hd, hns, -⟩ :=
      (steps_of_closure h).covers.resolved n ((mem_closure_iff h).2 ⟨hn, c, hc⟩)
    exact ⟨ns, Except.ok.inj (hc.symm.trans hd) ▸ hns⟩

/-- What can be tolerated has no fault. -/
theorem Tolerable.not_faulty (h : source.Tolerable roots) {n : ClassName} {fault : Fault}
    (hn : source.Reached roots n) : ¬ source.Faulty n fault := by
  rcases h.has_or_lacks n hn with ⟨c, hc⟩ | hl
  · obtain ⟨ns, hns⟩ := h.referenced n c hn hc
    exact not_faulty_of_referenced hc hns
  · exact hl.not_faulty

/-- A closure fails over a missing root or with the fault of a class that the roots lead to. -/
theorem fault_of_closure {fault : Fault} (h : source.closure roots = .error fault) :
    (∃ r ∈ roots, source.Lacks r ∧ fault = .missingRoot r)
      ∨ ∃ n, source.Reached roots n ∧ source.Faulty n fault := by
  obtain ⟨s, hs, hf⟩ := exists_fails_of_closure h
  exact hf.reached hs.reached

/-- **Tolerance.** There is a closure exactly if the source has every root, lacks at most what is no
    root, and nothing that the roots lead to is at fault. Otherwise the fault is that of a missing
    root or that of a class that the roots lead to. -/
theorem closure_tolerates (source : ClassSource) (roots : List ClassName) :
    ((∃ out, source.closure roots = .ok out) ↔ source.Tolerable roots)
      ∧ (¬ source.Tolerable roots → ∃ fault, source.closure roots = .error fault
        ∧ ((∃ r ∈ roots, source.Lacks r ∧ fault = .missingRoot r)
          ∨ ∃ n, source.Reached roots n ∧ source.Faulty n fault)) := by
  have closure_of (ht : source.Tolerable roots) : ∃ out, source.closure roots = .ok out := by
    cases hc : source.closure roots with
    | ok out => exact ⟨out, rfl⟩
    | error fault =>
      rcases fault_of_closure hc with ⟨r, hr, hl, -⟩ | ⟨n, hn, hf⟩
      · exact absurd hl (ht.has_root r hr).not_lacks
      · exact absurd hf (ht.not_faulty hn)
  refine ⟨⟨fun ⟨_, h⟩ => tolerable_of_closure h, closure_of⟩, fun ht => ?_⟩
  cases hc : source.closure roots with
  | ok out => exact absurd (tolerable_of_closure hc) ht
  | error fault => exact ⟨fault, rfl, fault_of_closure hc⟩

/-- Without the platform's classes there is a closure, unless one of them is a root. -/
theorem closure_tolerates_app :
    Sample.source.Tolerable [app, helper, base] ∧ ¬ Sample.source.Tolerable [app, object]
      ∧ ∃ fault, Sample.source.closure [app, object] = .error fault
        ∧ ((∃ r ∈ [app, object], Sample.source.Lacks r ∧ fault = .missingRoot r)
          ∨ ∃ n, Sample.source.Reached [app, object] n ∧ Sample.source.Faulty n fault) := by
  have hn : ¬ Sample.source.Tolerable [app, object] := fun h =>
    (h.has_root object (by simp)).not_lacks Sample.lacks_object
  exact ⟨(closure_tolerates _ _).1.1 ⟨_, Sample.closure_app⟩, hn, (closure_tolerates _ _).2 hn⟩

end ClassSource

end PrimaryDex
