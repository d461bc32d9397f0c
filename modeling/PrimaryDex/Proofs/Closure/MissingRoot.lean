import PrimaryDex.Proofs.ClassPath.FirstMatch
import PrimaryDex.Proofs.Closure.Reachability

namespace PrimaryDex

/-!
# Which fault a missing root gives way to

All that a pass does before it comes to the first missing root is to resolve the roots before it, with
whatever these lead up to. So only a fault among them can take the place of the missing root.

* `ClassSource.InHierarchy` — the names that some classes lead up to;
* `Stage.Guards` — what stands in front of the missing root: the hierarchy of the roots before it, as
  far as it is not resolved. Each step keeps it (`Step.exists_guards`);
* `ClassSource.closure_of_missing` — how a pass over a missing root ends;
* `ClassPath.closure_missingRoot_iff` — the same over a class path, which never reports a missing root
  of its own.
-/

namespace ClassSource

variable {source : ClassSource}

/-- The names that some classes lead up to, these included. Only a class that the source has leads
    any further. -/
inductive InHierarchy (source : ClassSource) (bottom : List ClassName) : ClassName → Prop where
  | bottom {n : ClassName} (hn : n ∈ bottom) : InHierarchy source bottom n
  | ancestor {n m : ClassName} {c : ClassFile} (hn : InHierarchy source bottom n)
      (hc : source.find n = .ok c) (hm : m ∈ c.ancestors) : InHierarchy source bottom m

end ClassSource

namespace Stage

variable {source : ClassSource} {roots before : List ClassName}

/-- What is resolved and what stands in `front` are names of the hierarchy of `before`, among them
    `before` itself. What is resolved is without fault and leads up to nothing else. -/
structure Guards (source : ClassSource) (before resolved front : List ClassName) : Prop where
  inHierarchy : ∀ n, n ∈ resolved ∨ n ∈ front → source.InHierarchy before n
  not_lacks : ∀ n ∈ front, ¬ source.Lacks n
  bottom_mem : ∀ n ∈ before, n ∈ resolved ∨ n ∈ front
  resolved : ∀ n ∈ resolved, ∃ c ns, source.find n = .ok c ∧ c.referenced = .ok ns
    ∧ ∀ m ∈ c.ancestors, (m ∈ resolved ∨ m ∈ front) ∨ source.Lacks m

/-- Settling the first class in front puts its lineage in front, in its place. -/
theorem Guards.settle {resolved front lineage referenced : List ClassName} {n : ClassName}
    {c : ClassFile} (h : Guards source before resolved (n :: front)) (hc : source.find n = .ok c)
    (hl : source.lineage (resolved ++ [n]).contains c.ancestors = .ok lineage)
    (hr : c.referenced = .ok referenced) :
    Guards source before (resolved ++ [n]) (lineage.reverse ++ front.filter (· ∉ lineage)) := by
  -- The lineage is all that comes to the lists.
  have listed_iff (m : ClassName) :
      (m ∈ resolved ++ [n] ∨ m ∈ lineage.reverse ++ front.filter (· ∉ lineage))
        ↔ (m ∈ resolved ∨ m ∈ n :: front) ∨ m ∈ lineage := by
    simp only [List.mem_append, List.mem_reverse, List.mem_filter, decide_eq_true_eq, List.mem_cons]
    grind
  have hn : source.InHierarchy before n := h.inHierarchy n (.inr (List.mem_cons_self ..))
  refine ⟨fun m hm => ?_, fun m hm => ?_, fun b hb => ?_, fun k hk => ?_⟩
  · rcases (listed_iff m).1 hm with hm | hm
    · exact h.inHierarchy m hm
    · exact ClassSource.forall_mem_lineage hl (fun a ha => .ancestor hn hc ha)
        (fun ha _ hd b hb => .ancestor ha hd hb) m hm
  · rcases List.mem_append.1 hm with hm | hm
    · exact (ClassSource.free_of_mem_lineage hl m (List.mem_reverse.1 hm)).1.not_lacks
    · exact h.not_lacks m (List.mem_cons_of_mem _ (List.mem_of_mem_filter hm))
  · exact (listed_iff b).2 (.inl (h.bottom_mem b hb))
  · rcases List.mem_append.1 hk with hk | hk
    · obtain ⟨d, ns, hd, hns, hm⟩ := h.resolved k hk
      exact ⟨d, ns, hd, hns, fun m hm' => (hm m hm').imp_left fun hm => (listed_iff m).2 (.inl hm)⟩
    · obtain rfl := List.mem_singleton.1 hk
      refine ⟨c, referenced, hc, hr, fun m hm => ?_⟩
      rcases ClassSource.mem_or_lacks_of_lineage hl (.inl hm) with hb | hb | hb
      · exact .inl (.inl hb)
      · exact .inl ((listed_iff m).2 (.inr hb))
      · exact .inr hb

/-- A step leaves the missing root in the queue, and in front of it what it guards against. -/
theorem Step.exists_guards {resolved front back : List ClassName} {r : ClassName} {t : Stage}
    (h : Step source roots ⟨resolved, front ++ r :: back⟩ t) (hl : source.Lacks r) (hr : r ∈ roots)
    (hg : Guards source before resolved front) :
    ∃ resolved' front' back', t = ⟨resolved', front' ++ r :: back'⟩
      ∧ Guards source before resolved' front' := by
  cases front with
  | nil =>
    cases h with
    | drop _ hr' => exact absurd hr hr'
    | settle hc _ _ => exact absurd hl (ClassSource.Has.not_lacks ⟨_, hc⟩)
  | cons n front =>
    cases h with
    | drop hn _ => exact absurd hn (hg.not_lacks n (List.mem_cons_self ..))
    | @settle _ _ _ lineage referenced c hc hlin href =>
      -- The missing root is in no lineage, so it keeps its place.
      have hrl : r ∉ lineage := fun hm =>
        (ClassSource.free_of_mem_lineage hlin r hm).1.not_lacks hl
      obtain ⟨added, hs, -⟩ := exists_settle_append_eq resolved front (r :: back) n lineage referenced
      rw [List.filter_cons_of_pos (by simpa using hrl), List.cons_append] at hs
      exact ⟨_, _, _, hs, hg.settle hc hlin href⟩

/-- On the way from the start, the missing root stays in the queue behind the hierarchy of the roots
    before it. -/
theorem Steps.exists_guards {after : List ClassName} {r : ClassName} {s : Stage}
    (h : Steps source (before ++ r :: after) (start (before ++ r :: after)) s)
    (hl : source.Lacks r) (hb : ∀ b ∈ before, ¬ source.Lacks b) :
    ∃ resolved front back, s = ⟨resolved, front ++ r :: back⟩
      ∧ Guards source before resolved front := by
  induction h with
  | refl =>
    -- The roots behind the missing one are enqueued behind it.
    have hrb : r ∉ (start before).pending := fun hm =>
      hb r (mem_of_lists_start (.inr hm)) hl
    have hrs : (start before).enqueue r = ⟨[], (start before).pending ++ [r]⟩ := by
      rw [start_eq before]
      simp [enqueue, hrb]
    obtain ⟨added, hp, -⟩ := exists_foldl_enqueue ⟨[], (start before).pending ++ [r]⟩ after
    refine ⟨[], (start before).pending, added, ?_, ?_, ?_, ?_, ?_⟩
    · rw [start, List.foldl_append, List.foldl_cons, ← start, hrs]
      refine Stage.ext (resolved_foldl_enqueue ..) ?_
      rw [hp, List.append_assoc, List.singleton_append]
    · rintro n (hn | hn)
      · simp at hn
      · exact .bottom (mem_of_lists_start (.inr hn))
    · exact fun n hn => hb n (mem_of_lists_start (.inr hn))
    · exact fun n hn => (lists_start hn).imp_left (by simp [start])
    · simp
  | tail _ ht ih =>
    obtain ⟨resolved, front, back, rfl, hg⟩ := ih
    exact ht.exists_guards hl (by simp) hg

end Stage

namespace ClassSource

variable {source : ClassSource} {before : List ClassName}

/-- With nothing left in front, all of the hierarchy is resolved or not there. -/
theorem mem_or_lacks_of_guards {resolved : List ClassName}
    (h : Stage.Guards source before resolved []) {n : ClassName}
    (hn : source.InHierarchy before n) : n ∈ resolved ∨ source.Lacks n := by
  induction hn with
  | bottom hb => exact .inl ((h.bottom_mem _ hb).resolve_right (by simp))
  | ancestor _ hc hm ih =>
    obtain ⟨d, ns, hd, -, hup⟩ := h.resolved _ (ih.resolve_right (Has.not_lacks ⟨_, hc⟩))
    obtain rfl := Except.ok.inj (hc.symm.trans hd)
    exact (hup _ hm).imp_left fun hm => hm.resolve_right (by simp)

/-- **How a pass over a missing root ends.** Either nothing that the roots before it lead up to is at
    fault, and the pass reports the missing root, or the fault is that of such a class. -/
theorem closure_of_missing {r : ClassName} (hb : ∀ b ∈ before, ¬ source.Lacks b)
    (hr : source.Lacks r) (after : List ClassName) :
    ∃ fault, source.closure (before ++ r :: after) = .error fault
      ∧ ((fault = .missingRoot r ∧ ∀ n fault, source.InHierarchy before n → ¬ source.Faulty n fault)
        ∨ ∃ n, source.InHierarchy before n ∧ source.Faulty n fault) := by
  cases hc : source.closure (before ++ r :: after) with
  | ok out =>
    -- A pass that ends well has emptied the queue, but the missing root cannot leave it.
    obtain ⟨resolved, front, back, hs, -⟩ := (steps_of_closure hc).exists_guards hr hb
    simp at hs
  | error fault =>
    refine ⟨fault, rfl, ?_⟩
    obtain ⟨s, hs, hf⟩ := exists_fails_of_closure hc
    obtain ⟨resolved, front, back, rfl, hg⟩ := hs.exists_guards hr hb
    cases front with
    | nil =>
      -- It is the turn of the missing root, and all of the hierarchy has been resolved.
      refine .inl ⟨?_, fun n fault' hn => ?_⟩
      · rcases hf.exists_faulty (S := (· = r)) rfl
          (by rintro a c rfl hc; exact absurd hr (Has.not_lacks ⟨c, hc⟩)) with h | ⟨m, rfl, hm⟩
        · exact h.2.2
        · exact absurd hm hr.not_faulty
      · rcases mem_or_lacks_of_guards hg hn with hm | hm
        · obtain ⟨c, ns, hc, hns, -⟩ := hg.resolved n hm
          exact not_faulty_of_referenced hc hns
        · exact hm.not_faulty
    | cons n front =>
      have hn := hg.inHierarchy n (.inr (List.mem_cons_self ..))
      refine .inr ((hf.exists_faulty hn fun ha hc b hb => .ancestor ha hc hb).resolve_left ?_)
      exact fun h => hg.not_lacks n (List.mem_cons_self ..) h.2.1

/-- Without classes, there is nothing that they lead up to. -/
theorem not_inHierarchy_nil {n : ClassName} :
    ¬ source.InHierarchy [] n := by
  intro h
  induction h with
  | bottom hn => simp at hn
  | ancestor _ _ _ ih => exact ih

/-- A missing root in front of all others is reported. -/
theorem closure_of_lacks_head {r : ClassName}
    (h : source.Lacks r) (rest : List ClassName) :
    source.closure (r :: rest) = .error (.missingRoot r) := by
  obtain ⟨fault, hc, ⟨rfl, -⟩ | ⟨n, hn, -⟩⟩ := @closure_of_missing source [] r (by simp) h rest
  · exact hc
  · exact absurd hn not_inHierarchy_nil

end ClassSource

/-! ### Over a class path -/

namespace ClassPath

/-- Loading a class is not about roots. -/
theorem ne_missingRoot_of_loadFrom {fs : FileSystem} {name : ClassName} {cs : List Container}
    {fault : Fault} (h : loadFrom fs name cs = .error fault) (r : ClassName) :
    fault ≠ .missingRoot r := by
  induction cs with
  | nil =>
    rintro rfl
    simp [loadFrom] at h
  | cons c cs ih =>
    unfold loadFrom at h
    split at h
    · exact ih h
    · rename_i fault' _ ho
      obtain rfl := Except.error.inj h
      -- No fault of opening an entry is about roots.
      rintro rfl
      exact (c.open_ne_absence fs name.path r).2 ho
    · rintro rfl
      simp at h
    · rintro rfl
      unfold decodeFile at h
      split at h <;> simp at h

/-- A missing root is not the fault of any class on a class path. -/
theorem ne_missingRoot_of_faulty {fs : FileSystem} {cp : ClassPath} {n : ClassName} {fault : Fault}
    (h : (cp.source fs).Faulty n fault) (r : ClassName) : fault ≠ .missingRoot r := by
  rcases h with ⟨hf, -⟩ | ⟨c, -, hr⟩
  · exact ne_missingRoot_of_loadFrom hf r
  · rintro rfl
    unfold ClassFile.referenced at hr
    split at hr <;> simp at hr

end ClassPath

/-! ### A damaged class and a missing one -/

namespace Sample

def ghost : ClassName := ⟨"Ghost"⟩
def broken : ClassName := ⟨"Broken"⟩

/-- The file of a class without ancestors that refers to itself and to `Broken`. -/
def referringContent : ByteArray :=
  ⟨#[0xca, 0xfe, 0xba, 0xbe, 0, 0, 0, 52, 0, 5, 1, 0, 3, 0x41, 0x70, 0x70, 7, 0, 1,
    1, 0, 6, 0x42, 0x72, 0x6f, 0x6b, 0x65, 0x6e, 7, 0, 3, 0, 0, 0, 2, 0, 0, 0, 0]⟩

/-- What is decoded from it as `App`. -/
def referringFile : ClassFile :=
  ⟨⟨"App", none, [], ⟨#[none, some (.utf8 "App"), some (.classRef 1), some (.utf8 "Broken"),
    some (.classRef 3)]⟩⟩, app⟩

/-- A folder with such a file and with one that is no class file. -/
def tree : FileSystem where
  root := .ofEntries [("App.class", .ofContent referringContent), ("Broken.class", .ofContent ⟨#[0x67]⟩)]
  working := []

def folderPath : ClassPath := ⟨[.folder "." false]⟩

/-- The dot leads to the working folder. -/
theorem stat_dot : tree.stat "." = .ok tree.root := by
  refine FileSystem.stat_eq_ok_iff.2 ⟨by decide, [], ?_⟩
  show FileSystem.walk tree.root .target _ [] [.ofText "."] = _
  rw [FileSystem.walk_cons_of_dot rfl rfl, FileSystem.walk]
  rfl

theorem find_referring : (folderPath.source tree).find app = .ok referringFile := by
  show folderPath.load tree app = _
  have hopen : (Container.folder "." false).open tree app.path = .ok (.ok referringContent) :=
    Container.open_folder_of_at? app.path stat_dot rfl (by decide) (by decide) (by decide)
  rw [ClassPath.load, folderPath, ClassPath.loadFrom_cons_of_open hopen]
  decide +kernel

/-- The file that is no class file is refused. -/
theorem find_broken : (folderPath.source tree).find broken
    = .error (.badFormat broken (.unexpectedEnd 0 4)) := by
  show folderPath.load tree broken = _
  have hopen : (Container.folder "." false).open tree broken.path = .ok (.ok ⟨#[0x67]⟩) :=
    Container.open_folder_of_at? broken.path stat_dot rfl (by decide) (by decide) (by decide)
  rw [ClassPath.load, folderPath, ClassPath.loadFrom_cons_of_open hopen]
  decide +kernel

/-- No file has the name. -/
theorem lacks_ghost : (folderPath.source tree).Lacks ghost := by
  rw [ClassPath.lacks_source_iff]
  simp only [folderPath, List.mem_singleton, forall_eq]
  exact Container.lacksEntry_folder_of_at? stat_dot (by decide) (by decide) rfl

/-- The class refers to the damaged one. -/
theorem referenced_referring : referringFile.referenced = .ok [app, broken] := by
  have h : referringFile.pool.entries.mapM (fun x => referringFile.pool.classesOf x.2)
      = .ok [[], [app], [], [broken]] := by decide
  simp [ClassFile.referenced, ClassHeader.references, h, firstOccurrences, firstOccurrencesBeyond,
    bind, Except.bind, pure, Except.pure]
  decide

end Sample

namespace ClassPath

open Sample (app broken folderPath ghost tree)

/-- **Which fault a missing root gives way to.** Over a class path, the first missing root is reported
    exactly if nothing is at fault among the roots before it and what they lead up to. Otherwise the
    fault of one of those is reported. -/
theorem closure_missingRoot_iff (fs : FileSystem) (cp : ClassPath) {before after : List ClassName}
    {r : ClassName} (hb : ∀ b ∈ before, ¬ (cp.source fs).Lacks b) (hr : (cp.source fs).Lacks r) :
    (cp.closure fs (before ++ r :: after) = .error (.missingRoot r)
        ↔ ∀ n fault, (cp.source fs).InHierarchy before n → ¬ (cp.source fs).Faulty n fault)
      ∧ ((∃ n fault, (cp.source fs).InHierarchy before n ∧ (cp.source fs).Faulty n fault) →
        ∃ n fault, (cp.source fs).InHierarchy before n ∧ (cp.source fs).Faulty n fault
          ∧ cp.closure fs (before ++ r :: after) = .error fault) := by
  obtain ⟨fault, hc, hfault⟩ := ClassSource.closure_of_missing hb hr after
  rw [closure, hc]
  rcases hfault with ⟨rfl, hnone⟩ | ⟨n, hn, hn'⟩
  · refine ⟨iff_of_true rfl hnone, ?_⟩
    rintro ⟨n, fault, hn, hn'⟩
    exact absurd hn' (hnone n fault hn)
  · refine ⟨iff_of_false ?_ fun hnone => hnone n fault hn hn', fun _ => ⟨n, fault, hn, hn', rfl⟩⟩
    exact fun h => ne_missingRoot_of_faulty hn' r (Except.error.inj h)

/-- A damaged class that is a root behind the missing one, and that a root before it refers to, does
    not hide it. As a root before it, it does. -/
theorem closure_missingRoot_iff_tree :
    folderPath.closure tree [app, ghost, broken] = .error (.missingRoot ghost)
      ∧ ∃ n fault, (folderPath.source tree).InHierarchy [broken] n
        ∧ (folderPath.source tree).Faulty n fault
        ∧ folderPath.closure tree [broken, ghost] = .error fault := by
  have hfaulty : (folderPath.source tree).Faulty broken _ := .inl ⟨Sample.find_broken, by simp⟩
  have happ : ∀ b ∈ [app], ¬ (folderPath.source tree).Lacks b := by
    intro b hb
    obtain rfl := List.mem_singleton.1 hb
    exact ClassSource.Has.not_lacks ⟨_, Sample.find_referring⟩
  have hbroken : ∀ b ∈ [broken], ¬ (folderPath.source tree).Lacks b := by
    intro b hb hl
    obtain rfl := List.mem_singleton.1 hb
    exact hl.not_faulty hfaulty
  refine ⟨(@closure_missingRoot_iff tree folderPath [app] [broken] ghost happ
      Sample.lacks_ghost).1.2 fun n fault hn => ?_,
    (@closure_missingRoot_iff tree folderPath [broken] [] ghost hbroken Sample.lacks_ghost).2
      ⟨broken, _, .bottom (List.mem_singleton_self _), hfaulty⟩⟩
  -- The class has no ancestors, so its hierarchy is the class alone.
  have hn' : n = app := by
    induction hn with
    | bottom hn => exact List.mem_singleton.1 hn
    | ancestor _ hc hm ih =>
      subst ih
      obtain rfl := Except.ok.inj (hc.symm.trans Sample.find_referring)
      simp [Sample.referringFile, ClassHeader.ancestors] at hm
  subst hn'
  exact ClassSource.not_faulty_of_referenced Sample.find_referring Sample.referenced_referring

end ClassPath

end PrimaryDex
