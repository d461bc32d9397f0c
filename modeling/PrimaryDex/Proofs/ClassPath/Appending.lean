import PrimaryDex.Proofs.ClassPath.FirstMatch
import PrimaryDex.Proofs.Closure.MissingRoot
import PrimaryDex.Proofs.Closure.Replay

namespace PrimaryDex

/-!
# Containers behind a class path

More containers at the end of a class path are searched only for what the class path lacks.

* `ClassPath.extend` — a class path with more containers behind its own;
* `ClassPath.load_extend_of_not_lacks`, `load_extend_of_lacks` — what is there stays what it is, and
  what is lacking is searched for in the new containers;
* `ClassSource.Reached.of_find` — with more classes, the roots lead at least as far;
* `ClassPath.closure_extend` — hence new containers do not change a closure if they lack what it
  missed, and never take a class away.
-/

namespace ClassSource

variable {source other : ClassSource} {roots : List ClassName}

/-- With more classes, the roots lead at least as far. -/
theorem Reached.of_find (h : ∀ {n c}, source.find n = .ok c → other.find n = .ok c) {n : ClassName}
    (hn : source.Reached roots n) : other.Reached roots n := by
  induction hn with
  | root hr => exact .root hr
  | ancestor _ hc hm ih => exact .ancestor ih (h hc) hm
  | reference _ hc hr hm ih => exact .reference ih (h hc) hr hm

/-- With more classes, a closure loses none. -/
theorem closure_subset_of_find {out out' : List ClassName}
    (h : ∀ {n c}, source.find n = .ok c → other.find n = .ok c)
    (ho : source.closure roots = .ok out) (ho' : other.closure roots = .ok out') : out ⊆ out' := by
  intro n hn
  obtain ⟨hr, c, hc⟩ := (mem_closure_iff ho).1 hn
  exact (mem_closure_iff ho').2 ⟨hr.of_find h, c, h hc⟩

end ClassSource

namespace ClassPath

variable {fs : FileSystem} {cp : ClassPath} {more : List Container} {n : ClassName}

/-- The class path with more containers behind its own. -/
def extend (cp : ClassPath) (more : List Container) : ClassPath := ⟨cp.containers ++ more⟩

/-- What a class path lacks is searched for in the new containers. -/
theorem load_extend_of_lacks (h : (cp.source fs).Lacks n) :
    (cp.extend more).load fs n = loadFrom fs n more :=
  loadFrom_append_of_lacksEntry (lacks_source_iff.1 h)

/-- What a class path does not lack keeps its answer. -/
theorem load_extend_of_not_lacks (h : ¬ (cp.source fs).Lacks n) :
    (cp.extend more).load fs n = cp.load fs n := by
  -- The container that decides stands in front of the new ones either way.
  rcases forall_lacksEntry_or_exists_first fs n.path cp.containers with hc | ⟨before, c, after, hcp,
    hb, hc⟩
  · exact absurd (lacks_source_iff.2 hc) h
  · unfold load extend
    rw [hcp, List.append_assoc, List.cons_append, loadFrom_eq hb hc, loadFrom_eq hb hc]

/-- New containers that lack what the class path lacks do not change the answer. -/
theorem load_extend_of_lacksEntry
    (h : (cp.source fs).Lacks n → ∀ c ∈ more, c.LacksEntry fs n.path) :
    (cp.extend more).load fs n = cp.load fs n := by
  by_cases hn : (cp.source fs).Lacks n
  · have hcp : cp.load fs n = .error (.classNotFound n) :=
      loadFrom_of_forall_lacksEntry (lacks_source_iff.1 hn)
    rw [load_extend_of_lacks hn, loadFrom_of_forall_lacksEntry (h hn), hcp]
  · exact load_extend_of_not_lacks hn

/-- What is found remains found. -/
theorem find_extend {c : ClassFile} (h : (cp.source fs).find n = .ok c) :
    ((cp.extend more).source fs).find n = .ok c :=
  (load_extend_of_not_lacks (ClassSource.Has.not_lacks ⟨c, h⟩)).trans h

end ClassPath

/-! ### A class that is found further on -/

namespace Sample

/-- A class file without ancestors that refers to nothing but `Broken`. -/
def leafContent : ByteArray :=
  ⟨#[0xca, 0xfe, 0xba, 0xbe, 0, 0, 0, 52, 0, 3, 1, 0, 6, 0x42, 0x72, 0x6f, 0x6b, 0x65, 0x6e,
    7, 0, 1, 0, 0, 0, 2, 0, 0, 0, 0]⟩

/-- What is decoded from it as `Broken`. -/
def leafFile : ClassFile :=
  ⟨⟨"Broken", none, [], ⟨#[none, some (.utf8 "Broken"), some (.classRef 1)]⟩⟩, broken⟩

/-- `App`, which refers to `Broken`, in one folder. `Broken` is in another, with a damaged `App`. -/
def splitTree : FileSystem where
  root := .ofEntries [
    ("a", .ofEntries [("App.class", .ofContent referringContent)]),
    ("b", .ofEntries [("App.class", .ofContent ⟨#[0x67]⟩), ("Broken.class", .ofContent leafContent)])]
  working := []

def firstFolder : ClassPath := ⟨[.folder "a" false]⟩

/-- An archive with nothing but another `App`. -/
def olderArchive : Container :=
  .archive "older.jar" (some ⟨.empty, [⟨"App.class", false, .stored, 0, 0, 0, 0, false⟩]⟩)

/-- The first folder has `App` alone. -/
theorem stat_firstFolder :
    splitTree.stat "a" = .ok (.ofEntries [("App.class", .ofContent referringContent)]) :=
  FileSystem.stat_of_at? (by decide) (by decide) rfl rfl nofun (by decide) (by decide)

theorem find_app_firstFolder : (firstFolder.source splitTree).find app = .ok referringFile := by
  show firstFolder.load splitTree app = _
  have hopen : (Container.folder "a" false).open splitTree app.path = .ok (.ok referringContent) :=
    Container.open_folder_of_at? app.path stat_firstFolder rfl (by decide) (by decide) (by decide)
  rw [ClassPath.load, firstFolder, ClassPath.loadFrom_cons_of_open hopen]
  decide +kernel

/-- The first folder has no file of the class. -/
theorem lacks_broken_firstFolder : (firstFolder.source splitTree).Lacks broken := by
  rw [ClassPath.lacks_source_iff]
  simp only [firstFolder, List.mem_singleton, forall_eq]
  exact Container.lacksEntry_folder_of_at? stat_firstFolder (by decide) (by decide) rfl

/-- A folder behind has it. -/
theorem find_broken_extend : ((firstFolder.extend [.folder "b" false]).source splitTree).find broken
    = .ok leafFile := by
  have hs : splitTree.stat "b" = .ok (.ofEntries
      [("App.class", .ofContent ⟨#[0x67]⟩), ("Broken.class", .ofContent leafContent)]) :=
    FileSystem.stat_of_at? (by decide) (by decide) rfl rfl nofun (by decide) (by decide)
  have hopen : (Container.folder "b" false).open splitTree broken.path = .ok (.ok leafContent) :=
    Container.open_folder_of_at? broken.path hs rfl (by decide) (by decide) (by decide)
  show ClassPath.loadFrom splitTree broken (firstFolder.containers ++ [.folder "b" false]) = _
  rw [ClassPath.loadFrom_append_of_lacksEntry (ClassPath.lacks_source_iff.1 lacks_broken_firstFolder),
    ClassPath.loadFrom_cons_of_open hopen]
  decide +kernel

theorem referenced_leaf : leafFile.referenced = .ok [broken] := by
  have h : leafFile.pool.entries.mapM (fun x => leafFile.pool.classesOf x.2)
      = .ok [[], [broken]] := by decide
  simp [ClassFile.referenced, ClassHeader.references, h, firstOccurrences, firstOccurrencesBeyond,
    bind, Except.bind, pure, Except.pure]

/-- The class that the first folder lacks is dropped from the queue. -/
theorem closure_firstFolder : firstFolder.closure splitTree [app] = .ok [app] := by
  have start : Stage.start [app] = ⟨[], [app]⟩ := by decide
  have app_step : Stage.Step (firstFolder.source splitTree) [app] ⟨[], [app]⟩ ⟨[app], [broken]⟩ :=
    .settle find_app_firstFolder (ClassSource.lineage_nil _) referenced_referring
  unfold ClassPath.closure
  rw [ClassSource.closure_eq_ok_iff, start]
  exact .head app_step (.single (.drop lacks_broken_firstFolder (by decide)))

/-- With the second folder it is kept. -/
theorem closure_firstFolder_extend :
    (firstFolder.extend [.folder "b" false]).closure splitTree [app] = .ok [app, broken] := by
  have start : Stage.start [app] = ⟨[], [app]⟩ := by decide
  have app_step : Stage.Step ((firstFolder.extend [.folder "b" false]).source splitTree) [app]
      ⟨[], [app]⟩ ⟨[app], [broken]⟩ :=
    .settle (ClassPath.find_extend find_app_firstFolder) (ClassSource.lineage_nil _)
      referenced_referring
  have broken_step : Stage.Step ((firstFolder.extend [.folder "b" false]).source splitTree) [app]
      ⟨[app], [broken]⟩ ⟨[app, broken], []⟩ :=
    .settle find_broken_extend (ClassSource.lineage_nil _) referenced_leaf
  unfold ClassPath.closure
  rw [ClassSource.closure_eq_ok_iff, start]
  exact .head app_step (.single broken_step)

end Sample

namespace ClassPath

open Sample (app broken firstFolder olderArchive splitTree)

/-- **Containers behind a class path.** They do not change what a pass comes to if they have no
    entry of any class that it asked for and that the class path lacks. Whatever they are, a closure
    that there is with them holds all classes of the one without them. -/
theorem closure_extend (fs : FileSystem) (cp : ClassPath) (more : List Container)
    (roots : List ClassName) :
    ((∀ n ∈ (cp.source fs).asked roots, (cp.source fs).Lacks n →
        ∀ c ∈ more, c.LacksEntry fs n.path) →
        (cp.extend more).closure fs roots = cp.closure fs roots)
      ∧ ∀ out out', cp.closure fs roots = .ok out → (cp.extend more).closure fs roots = .ok out' →
        out ⊆ out' :=
  ⟨fun h => ClassSource.closure_eq_of_agreesOn fun n hn => load_extend_of_lacksEntry (h n hn),
    fun _ _ => ClassSource.closure_subset_of_find find_extend⟩

/-- Another `App` behind the folder changes nothing. The folder that has `Broken` adds it. -/
theorem closure_extend_firstFolder :
    (firstFolder.extend [olderArchive]).closure splitTree [app]
        = firstFolder.closure splitTree [app]
      ∧ firstFolder.closure splitTree [app] = .ok [app]
      ∧ (firstFolder.extend [.folder "b" false]).closure splitTree [app] = .ok [app, broken]
      ∧ [app] ⊆ [app, broken] := by
  refine ⟨(closure_extend splitTree firstFolder [olderArchive] [app]).1 fun n _ hn => ?_,
    Sample.closure_firstFolder, Sample.closure_firstFolder_extend,
    (closure_extend splitTree firstFolder _ [app]).2 _ _ Sample.closure_firstFolder
      Sample.closure_firstFolder_extend⟩
  -- The archive has no class but `App`, which the folder does not lack.
  have hne : "App.class" ≠ n.path := fun he =>
    ClassSource.Has.not_lacks ⟨_, Sample.find_app_firstFolder⟩
      (ClassName.path_injective (m := app) he ▸ hn)
  simp only [List.mem_singleton, forall_eq]
  exact Container.lacksEntry_of_find?_eq_none (by simp [Zip.Archive.find?, hne])

end ClassPath

end PrimaryDex
