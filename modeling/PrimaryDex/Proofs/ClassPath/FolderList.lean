import PrimaryDex.Proofs.ClassPath.RootContainer
import PrimaryDex.Proofs.FileTree.Sorted

namespace PrimaryDex

/-!
# The list of a folder's files

* `Container.pairwise_folderWays` — the files in the list of a folder are in order, name by name;
* `Container.files_folder` — which files are listed, each of them once, and that the list does not
  depend on the order in which the file system has the entries;
* `Container.files_outOfReach` — a folder below too long a path is left out of the list.
-/

/-- Rows of names in order are all different. -/
theorem nodup_of_pairwise_namesLT {ways : List (List FileName)} (h : ways.Pairwise NamesLT) :
    ways.Nodup := by
  refine h.imp ?_
  intro xs ys hlt he
  exact NamesLT.irrefl _ (he ▸ hlt)

/-- Lists in order that have the same rows of names are the same. -/
theorem eq_of_pairwise_namesLT {ways ways' : List (List FileName)} (h : ways.Pairwise NamesLT)
    (h' : ways'.Pairwise NamesLT) (hmem : ∀ names, names ∈ ways ↔ names ∈ ways') :
    ways = ways' := by
  have hperm : ways.Perm ways' :=
    (List.perm_ext_iff_of_nodup (nodup_of_pairwise_namesLT h) (nodup_of_pairwise_namesLT h')).2
      fun names => hmem names
  exact hperm.eq_of_pairwise (fun _ _ _ _ hlt hgt => absurd hgt hlt.asymm) h h'

/-- Paths are in order like the rows of names that they are made of, if these are found again in them. -/
theorem pairwise_map_pathText {ways : List (List FileName)} (h : ways.Pairwise NamesLT)
    (hback : ∀ names ∈ ways, pathSteps (pathText names) = names) :
    (ways.map pathText).Pairwise fun p q => NamesLT (pathSteps p) (pathSteps q) := by
  rw [List.pairwise_map]
  refine h.imp_of_mem ?_
  intro xs ys hxs hys hlt
  rwa [hback xs hxs, hback ys hys]

namespace Container

variable {fs : FileSystem} {location : String} {access : FolderAccess}
  {es : List (FileName × Node)}

/-- The list of a folder is in order. -/
theorem pairwise_folderWays (ho : fs.isOrderly = true)
    (hs : fs.stat location = .ok (.folder access es)) :
    (folderWays fs location).Pairwise NamesLT := by
  unfold folderWays
  cases isStandardInput location with
  | true => exact .nil
  | false =>
    simp only [Bool.false_eq_true, if_false, hs]
    exact (Node.pairwise_files _ (FileSystem.isOrderly_of_stat ho hs)).filter _

/-- If all listed names are UTF-8, they are found again in the listed paths. -/
theorem pathSteps_of_mem_folderWays (ho : fs.isOrderly = true)
    (hs : fs.stat location = .ok (.folder access es)) {names : List FileName}
    (hn : names ∈ folderWays fs location) (ht : ∀ name ∈ names, name.isText = true) :
    pathSteps (pathText names) = names := by
  obtain ⟨-, -, -, -, fileAccess, content, hat⟩ := (mem_folderWays_iff ho hs).1 hn
  have hne : names ≠ [] := by
    rintro rfl
    simp [Node.at?] at hat
  exact pathSteps_pathText hne (Node.isOrderly_of_at? (FileSystem.isOrderly_of_stat ho hs) hat).2 ht

/-- **What a folder lists.** The names of its files in order, each file once, as the paths that they are
    shown as. No file is left out, except that a folder called like standard input lists none, and that
    what is in a subfolder that cannot be listed or reached is not seen. Links are not followed. The
    order in which the file system has the entries makes no difference: all trees that show the same
    files below the folder give this list. If all names are UTF-8, the paths are different and in order
    like the names. -/
theorem files_folder (ho : fs.isOrderly = true)
    (hs : fs.stat location = .ok (.folder access es)) :
    ∃ ways : List (List FileName), (folder location false).files fs = .ok (ways.map pathText)
      ∧ ways.Pairwise NamesLT ∧ ways.Nodup
      ∧ (∀ names, names ∈ ways ↔ isStandardInput location = false
        ∧ isInReach location names = true ∧ (Node.folder access es).Shows names)
      ∧ (∀ (fs' : FileSystem) (access' : FolderAccess) (es' : List (FileName × Node)),
        fs'.isOrderly = true → fs'.stat location = .ok (.folder access' es') →
        (∀ names, (Node.folder access' es').Shows names ↔ (Node.folder access es).Shows names) →
        (folder location false).files fs' = .ok (ways.map pathText))
      ∧ ((∀ names ∈ ways, ∀ name ∈ names, name.isText = true) →
        (ways.map pathText).Nodup
          ∧ ((ways.map pathText).Pairwise fun p q => NamesLT (pathSteps p) (pathSteps q))
          ∧ ∀ path, path ∈ ways.map pathText ↔ pathSteps path ∈ ways) := by
  have hsorted := pairwise_folderWays ho hs
  refine ⟨folderWays fs location, rfl, hsorted, nodup_of_pairwise_namesLT hsorted,
    fun names => mem_folderWays_iff ho hs, ?_, fun ht => ?_⟩
  · intro fs' access' es' ho' hs' hshows
    -- Two rows that are sorted strictly and have the same members are the same row.
    have hsame : folderWays fs' location = folderWays fs location := by
      refine eq_of_pairwise_namesLT (pairwise_folderWays ho' hs') hsorted fun names => ?_
      rw [mem_folderWays_iff ho' hs', mem_folderWays_iff ho hs, hshows]
    show Except.ok ((folderWays fs' location).map pathText) = _
    rw [hsame]
  · -- Names that are UTF-8 are told apart by what they are shown as.
    have hback : ∀ names ∈ folderWays fs location, pathSteps (pathText names) = names :=
      fun names hn => pathSteps_of_mem_folderWays ho hs hn (ht names hn)
    have hpaths := pairwise_map_pathText hsorted hback
    have hnodup : ((folderWays fs location).map pathText).Nodup := by
      refine hpaths.imp ?_
      intro p q hlt he
      exact NamesLT.irrefl _ (he ▸ hlt)
    refine ⟨hnodup, hpaths, fun path => ?_⟩
    rw [List.mem_map]
    constructor
    · rintro ⟨names, hn, rfl⟩
      rwa [hback names hn]
    · exact fun hn => ⟨_, hn, pathText_pathSteps path⟩

end Container

namespace Sample

/-- A class file, a folder of the same stem, a link to that and a folder that may not be listed. -/
def stems : List (String × Node) :=
  [("b", .link (.ofPath "a")), ("a.class", .ofContent soundContent),
    ("a", .ofEntries [("z", .ofContent .empty), ("x.class", .ofContent soundContent)]),
    ("c", .folder { toList := some .noPermission } [(.ofText "y.class", .ofContent soundContent)])]

/-- They stand in a folder in this order. -/
def stemTree : FileSystem where
  root := .ofEntries [("d", .ofEntries stems)]
  working := []

theorem stat_stemTree : stemTree.stat "d" = .ok (.ofEntries stems) :=
  FileSystem.stat_of_at? (by decide) (by decide) rfl rfl nofun (by decide) (by decide)

/-- The link and the folder that may not be listed have no files. -/
theorem folderWays_stemTree : Container.folderWays stemTree "d"
    = [[.ofText "a", .ofText "x.class"], [.ofText "a", .ofText "z"], [.ofText "a.class"]] := by
  have ha : (Node.ofEntries [("z", .ofContent .empty), ("x.class", .ofContent soundContent)]).files
      = [[.ofText "x.class"], [.ofText "z"]] :=
    Node.files_folder_of_perm [(.ofText "x.class", [[]]), (.ofText "z", [[]])] rfl (.swap ..) (by decide)
  have hentries : Node.filesOfEntries {} (stems.map fun e => (.ofText e.1, e.2))
      = [(.ofText "b", []), (.ofText "a.class", [[]]), (.ofText "a", [[.ofText "x.class"], [.ofText "z"]]),
        (.ofText "c", [])] := by
    rw [← ha]
    rfl
  have hfiles : (Node.ofEntries stems).files
      = [[.ofText "a", .ofText "x.class"], [.ofText "a", .ofText "z"], [.ofText "a.class"]] :=
    Node.files_folder_of_perm [(.ofText "a", [[.ofText "x.class"], [.ofText "z"]]),
      (.ofText "a.class", [[]]), (.ofText "b", []), (.ofText "c", [])] rfl
      (by rw [hentries]; decide) (by decide)
  rw [Container.folderWays_of_stat stat_stemTree (by decide), hfiles]
  decide

end Sample

namespace Container

open Sample (libSlashes libraryTree stemTree)

/-- What is in the folder `a` comes before `a.class`, unlike in the order of the paths as texts. -/
theorem files_folder_stemTree :
    (folder "d" false).files stemTree = .ok ["a/x.class", "a/z", "a.class"]
      ∧ ["a/x.class", "a/z", "a.class"].Pairwise
        (fun p q => NamesLT (pathSteps p) (pathSteps q)) := by
  have hlist : (folder "d" false).files stemTree = .ok ["a/x.class", "a/z", "a.class"] := by
    show Except.ok ((folderWays stemTree "d").map pathText) = _
    rw [Sample.folderWays_stemTree]
    decide
  have horderly : stemTree.isOrderly = true := by decide
  have hes := Sample.stat_stemTree
  obtain ⟨ways, hpaths, hsorted, -, hmem, -, htext⟩ := files_folder horderly hes
  have hsame : ways = folderWays stemTree "d" :=
    eq_of_pairwise_namesLT hsorted (pairwise_folderWays horderly hes) fun names => by
      rw [hmem, mem_folderWays_iff horderly hes]
  obtain ⟨-, hpairs, -⟩ := htext (by rw [hsame, Sample.folderWays_stemTree]; decide)
  rw [← Except.ok.inj (hlist.symm.trans hpaths)] at hpairs
  exact ⟨hlist, hpairs⟩

/-- The folder shows two class files. Under a path that is nearly as long as any may be, it lists only
    the one that is not in a subfolder. -/
theorem files_outOfReach :
    libraryTree.isOrderly = true
      ∧ ofLocation libraryTree (libSlashes 4092) = .ok (.folder (libSlashes 4092) false)
      ∧ libraryTree.stat (libSlashes 4092) = .ok Sample.library
      ∧ Sample.library.Shows (pathSteps "Tool.class")
      ∧ Sample.library.Shows (pathSteps "p/Frame.class")
      ∧ (folder (libSlashes 4092) false).files libraryTree = .ok ["Tool.class"] := by
  have hlist : (folder (libSlashes 4092) false).files libraryTree = .ok ["Tool.class"] := by
    show Except.ok ((folderWays libraryTree (libSlashes 4092)).map pathText) = _
    rw [Sample.folderWays_libSlashes (n := 4091) (by decide)]
    decide
  have htool : Sample.library.Shows (pathSteps "Tool.class") := ⟨by decide, by decide, _, _, rfl⟩
  have hframe : Sample.library.Shows (pathSteps "p/Frame.class") :=
    ⟨by decide, by decide, _, _, rfl⟩
  exact ⟨by decide, Sample.ofLocation_libSlashes (by decide), Sample.stat_libSlashes (by decide),
    htool, hframe, hlist⟩

/-- Two files whose names are no UTF-8 are shown as one path. -/
example : (folder "d" false).files Sample.lossyTree = .ok ["A\ufffd.class", "A\ufffd.class"] := by
  show Except.ok ((folderWays Sample.lossyTree "d").map pathText) = _
  rw [Sample.folderWays_lossyTree]
  decide +kernel

end Container

end PrimaryDex
