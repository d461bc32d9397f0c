import PrimaryDex.Program.Roots
import PrimaryDex.Proofs.ClassPath.Listing
import PrimaryDex.Proofs.Closure.MissingRoot
import PrimaryDex.Proofs.FileTree.Sorted

namespace PrimaryDex

/-!
# Root containers

The roots from a container are the classes that it lists, and a class path that has the container too
opens their files.

* `mem_rootsOfContainer_iff` — which classes of a container are roots;
* `ClassPath.not_lacks_of_rootsOfContainer` — which roots are there on a class path with the same
  container.
-/

variable {fs : FileSystem} {location path : String} {c : Container} {roots : List ClassName}

/-- A class is among those of some paths exactly if its own path is there. -/
theorem mem_classesOfPaths_iff {r : ClassName} {paths : List String} :
    r ∈ classesOfPaths paths ↔ r.path ∈ paths := by
  simp only [classesOfPaths, List.mem_map, List.mem_filter, List.isSuffixOf_iff_suffix]
  constructor
  · rintro ⟨p, ⟨hp, t, ht⟩, rfl⟩
    rwa [ClassName.path_ofPath ht.symm]
  · intro h
    exact ⟨r.path, ⟨h, r.internal.toList, r.toList_path.symm⟩, ClassName.ofPath_path r⟩

/-- The classes in a root container are those whose files it lists. -/
theorem files_of_rootsOfContainer (hc : Container.ofLocation fs location = .ok c)
    (hr : rootsOfContainer fs location = .ok roots) :
    ∃ paths, c.files fs = .ok paths ∧ roots = classesOfPaths paths := by
  unfold rootsOfContainer at hr
  split at hr
  · rename_i paths hp
    obtain ⟨c', hc', hf⟩ := bind_eq_ok_iff.1 hp
    obtain rfl := Except.ok.inj (hc'.symm.trans hc)
    exact ⟨paths, hf, (Except.ok.inj hr).symm⟩
  · simp at hr

/-- The roots from a folder are the classes whose files it lists. -/
theorem rootsOfContainer_of_stat {access : FolderAccess} {es : List (FileName × Node)}
    (hs : fs.stat location = .ok (.folder access es)) :
    rootsOfContainer fs location
      = .ok (classesOfPaths ((Container.folderWays fs location).map Container.pathText)) := by
  rw [rootsOfContainer, Container.ofLocation_of_stat hs]
  rfl

/-- The roots from a container are the classes whose files it lists, under their own names or under what
    their names are shown as. -/
theorem mem_rootsOfContainer_iff_lists (ho : fs.isOrderly = true)
    (hc : Container.ofLocation fs location = .ok c) (hr : rootsOfContainer fs location = .ok roots)
    {r : ClassName} : r ∈ roots ↔ c.ListsItself fs r.path ∨ c.Blurs fs r.path := by
  obtain ⟨paths, hf, rfl⟩ := files_of_rootsOfContainer hc hr
  rw [mem_classesOfPaths_iff, Container.mem_files_iff ho hc hf]

/-! ### Classes that are lost -/

namespace Sample

/-- A folder with a class file and a link to it. -/
def linkedTree : FileSystem where
  root := .ofEntries [
    ("d", .ofEntries [("A.class", .link (.ofPath "B.class")), ("B.class", .ofContent soundContent)])]
  working := []

theorem isOrderly_linkedTree : linkedTree.isOrderly = true := by
  decide

theorem stat_linkedTree : linkedTree.stat "d" = .ok (.ofEntries
    [("A.class", .link (.ofPath "B.class")), ("B.class", .ofContent soundContent)]) :=
  FileSystem.stat_of_at? (by decide) (by decide) rfl rfl nofun (by decide) (by decide)

theorem ofLocation_linkedTree :
    Container.ofLocation linkedTree "d" = .ok (.folder "d" false) :=
  Container.ofLocation_of_stat stat_linkedTree

/-- The link is not listed. -/
theorem folderWays_linkedTree : Container.folderWays linkedTree "d" = [[.ofText "B.class"]] := by
  have hfiles : (Node.ofEntries [("A.class", .link (.ofPath "B.class")),
      ("B.class", .ofContent soundContent)]).files = [[.ofText "B.class"]] :=
    Node.files_folder_of_perm [(.ofText "A.class", []), (.ofText "B.class", [[]])] rfl (.refl _)
      (by decide)
  rw [Container.folderWays_of_stat stat_linkedTree (by decide), hfiles]
  decide

theorem rootsOfContainer_linkedTree : rootsOfContainer linkedTree "d" = .ok [⟨"B"⟩] := by
  have hone : classesOfPaths ([[.ofText "B.class"]].map Container.pathText) = [⟨"B"⟩] := by
    decide
  rw [rootsOfContainer_of_stat stat_linkedTree, folderWays_linkedTree, hone]

theorem isSealed_linkedTree : (Container.folder "d" false).isSealed linkedTree "B.class" = false := by
  rw [Container.isSealed_folder_eq_false_iff stat_linkedTree]
  decide

/-- The link leads to the class file beside it. -/
theorem fileAt?_linkedTree : linkedTree.fileAt? "d/A.class" = some ({}, soundContent) := by
  refine FileSystem.fileAt?_eq_some_iff.2 (FileSystem.stat_eq_ok_iff.2 ⟨by decide, ?_⟩)
  refine ⟨[.ofText "d", .ofText "B.class"], ?_⟩
  show FileSystem.walk linkedTree.root .target 40 [] [.ofText "d", .ofText "A.class"] = _
  rw [FileSystem.walk_cons_of_entry rfl rfl (by decide) (by decide) rfl (by nofun),
    FileSystem.walk_cons_of_link rfl rfl (by decide) (by decide) rfl]
  exact FileSystem.walk_of_at? rfl rfl nofun (by decide) (by decide)

/-- All names are UTF-8 and shown as what they are. -/
theorem not_blurs_linkedTree : ¬ (Container.folder "d" false).Blurs linkedTree "B.class" := by
  have htext : (FileName.ofText "B.class").isText = true := by decide
  simp [Container.Blurs, folderWays_linkedTree, htext]

end Sample

open Sample (linkedTree)

/-- **Which classes a root container loses.** Apart from entries that are sealed, a class is a root
    exactly if the container has its file and does not hide it behind a link, in a folder that cannot be
    listed, in an entry that cannot be opened or by being called like standard input; or if the
    container has some file whose names are no UTF-8 and are shown as the path of the class. -/
theorem mem_rootsOfContainer_iff (ho : fs.isOrderly = true)
    (hc : Container.ofLocation fs location = .ok c) (hr : rootsOfContainer fs location = .ok roots)
    (hp : ClassName.extension <:+ path.toList)
    (hn : ∀ name ∈ pathNames path, name ≠ "" ∧ name ≠ "." ∧ name ≠ "..")
    (hl : c.isSealed fs path = false) :
    ClassName.ofPath path ∈ roots
      ↔ ¬ c.LacksEntry fs path ∧ c.hides fs path = false ∨ c.Blurs fs path := by
  obtain ⟨t, ht⟩ := hp
  obtain ⟨paths, hf, -⟩ := files_of_rootsOfContainer hc hr
  have hdown : ∀ name ∈ pathNames path, goesDown (.ofText name) = true :=
    fun name hname => goesDown_ofText_iff.2 (hn name hname)
  rw [mem_rootsOfContainer_iff_lists ho hc hr, ClassName.path_ofPath ht.symm,
    Container.listsItself_iff ho hc hf ht.symm hdown hl]

/-- The class file that the link leads to is that of a root. -/
theorem mem_rootsOfContainer_iff_linkedTree :
    rootsOfContainer linkedTree "d" = .ok [⟨"B"⟩]
      ∧ ¬ (Container.folder "d" false).LacksEntry linkedTree "B.class"
      ∧ (Container.folder "d" false).hides linkedTree "B.class" = false := by
  refine ⟨Sample.rootsOfContainer_linkedTree, ?_⟩
  have hroot := (mem_rootsOfContainer_iff Sample.isOrderly_linkedTree Sample.ofLocation_linkedTree
    Sample.rootsOfContainer_linkedTree (by decide) (by decide) Sample.isSealed_linkedTree).1 (by decide)
  exact hroot.resolve_right Sample.not_blurs_linkedTree

/-- The link itself is no root, although it leads to a class file. -/
theorem not_mem_rootsOfContainer_linkedTree :
    rootsOfContainer linkedTree "d" = .ok [⟨"B"⟩]
      ∧ ClassName.ofPath "A.class" ∉ [(⟨"B"⟩ : ClassName)]
      ∧ Container.ofLocation linkedTree "d" = .ok (.folder "d" false)
      ∧ ¬ (Container.folder "d" false).LacksEntry linkedTree "A.class" := by
  have hpath : Container.entryPath "d" "A.class" = "d/A.class" := by decide
  refine ⟨Sample.rootsOfContainer_linkedTree, by decide, Sample.ofLocation_linkedTree, ?_⟩
  rw [Container.lacksEntry_folder_iff, hpath, Sample.fileAt?_linkedTree]
  simp

/-! ### Roots that are missing -/

namespace Sample

/-- The file names `A?.class` with two bytes in place of the mark that are no UTF-8. -/
def lossyNames : List FileName :=
  [⟨⟨#[0x41, 0xfe, 0x2e, 0x63, 0x6c, 0x61, 0x73, 0x73]⟩⟩,
    ⟨⟨#[0x41, 0xff, 0x2e, 0x63, 0x6c, 0x61, 0x73, 0x73]⟩⟩]

/-- A folder with a class file under each of these names. -/
def lossyTree : FileSystem where
  root := .ofEntries [("d", .folder {} (lossyNames.map fun name => (name, .ofContent soundContent)))]
  working := []

theorem stat_lossyTree : lossyTree.stat "d"
    = .ok (.folder {} (lossyNames.map fun name => (name, .ofContent soundContent))) :=
  FileSystem.stat_of_at? (by decide) (by decide) rfl rfl nofun (by decide) (by decide)

/-- Both files are listed. -/
theorem folderWays_lossyTree : Container.folderWays lossyTree "d" = lossyNames.map fun name => [name] := by
  rw [Container.folderWays_of_stat stat_lossyTree (by decide),
    Node.files_folder_of_perm (lossyNames.map fun name => (name, [[]])) rfl (.refl _) (by decide)]
  decide

def tool : ClassName := ⟨"Tool"⟩
def frame : ClassName := ⟨"p/Frame"⟩
/-- A class whose file would stand below that of `Tool`. -/
def below : ClassName := ⟨"Tool.class/Below"⟩

/-- A class file of `Tool`, whose superclass is `p/Frame` and which refers to the class below as well. -/
def toolContent : ByteArray :=
  ⟨#[0xca, 0xfe, 0xba, 0xbe, 0, 0, 0, 52, 0, 7, 1, 0, 4, 0x54, 0x6f, 0x6f, 0x6c, 7, 0, 1,
    1, 0, 7, 0x70, 0x2f, 0x46, 0x72, 0x61, 0x6d, 0x65, 7, 0, 3,
    1, 0, 16, 0x54, 0x6f, 0x6f, 0x6c, 0x2e, 0x63, 0x6c, 0x61, 0x73, 0x73, 0x2f, 0x42, 0x65, 0x6c, 0x6f,
    0x77, 7, 0, 5, 0, 0, 0, 2, 0, 4, 0, 0]⟩

/-- A class file of `p/Frame`, which has no superclass. -/
def frameContent : ByteArray :=
  ⟨#[0xca, 0xfe, 0xba, 0xbe, 0, 0, 0, 52, 0, 3, 1, 0, 7, 0x70, 0x2f, 0x46, 0x72, 0x61, 0x6d, 0x65,
    7, 0, 1, 0, 0, 0, 2, 0, 0, 0, 0]⟩

/-- A folder with both, one of them in a subfolder, where a note stands besides. -/
def library : Node :=
  .ofEntries [("Tool.class", .ofContent toolContent),
    ("p", .ofEntries [("note", .ofContent ⟨#[0x67]⟩), ("Frame.class", .ofContent frameContent)])]

/-- It stands between a folder with another class and one with a damaged `Tool`. -/
def libraryTree : FileSystem where
  root := .ofEntries [("first", .ofEntries [("Sound.class", .ofContent soundContent)]),
    ("lib", library), ("last", .ofEntries [("Tool.class", .ofContent ⟨#[0x67]⟩)])]
  working := []

/-- The path of that folder with some separators behind it. -/
def libSlashes : Nat → String
  | 0 => "lib"
  | n + 1 => libSlashes n ++ "/"

/-- Each separator adds a byte. -/
theorem utf8ByteSize_libSlashes (n : Nat) : (libSlashes n).utf8ByteSize = n + 3 := by
  induction n with
  | zero => rfl
  | succ n ih =>
    rw [libSlashes, String.utf8ByteSize_append, ih]
    exact Nat.add_right_comm n 3 1

/-- The first name is not that of standard input, however many separators follow. -/
theorem isStandardInput_libSlashes (n : Nat) :
    Container.isStandardInput (libSlashes n) = false := by
  have hnames : ∃ rest, pathNames (libSlashes n) = "lib" :: rest := by
    induction n with
    | zero => exact ⟨[], by decide⟩
    | succ n ih =>
      obtain ⟨rest, hrest⟩ := ih
      exact ⟨rest ++ [""], by rw [libSlashes, pathNames_append_slash_empty, hrest]; rfl⟩
  obtain ⟨rest, hrest⟩ := hnames
  rw [Container.isStandardInput, hrest]
  rfl

/-- The path leads to the folder as long as it is not too long. -/
theorem stat_libSlashes {n : Nat} (h : n + 3 ≤ FileSystem.maxPath) :
    libraryTree.stat (libSlashes n) = .ok library := by
  induction n with
  | zero =>
    exact FileSystem.stat_of_at? (by decide) (by decide) rfl rfl nofun (by decide) (by decide)
  | succ n ih =>
    -- A separator at the end changes nothing but the length.
    refine FileSystem.stat_append_slash (ih (by omega)) ?_
    have hsize := utf8ByteSize_libSlashes (n + 1)
    rw [libSlashes] at hsize
    omega

theorem ofLocation_libSlashes {n : Nat} (h : n + 3 ≤ FileSystem.maxPath) :
    Container.ofLocation libraryTree (libSlashes n) = .ok (.folder (libSlashes n) false) :=
  Container.ofLocation_of_stat (stat_libSlashes h)

/-- A separator at the end of a path is not counted twice. -/
theorem pathSize_libSlashes (n : Nat) (names : List FileName) :
    Container.pathSize (libSlashes (n + 1)) names
      = names.foldl (fun size name => size + 1 + name.size) (n + 3) := by
  have hlast : (libSlashes (n + 1)).toList.getLast? = some '/' := by
    simp [libSlashes]
  rw [Container.pathSize, if_pos hlast, utf8ByteSize_libSlashes]
  rfl

/-- The names that lead to the files of the folder. -/
def libraryWays : List (List FileName) :=
  ["Tool.class", "p/Frame.class", "p/note"].map pathSteps

/-- Of a path that is one byte longer, the subfolder is out of reach and the files beside it are
    not. -/
theorem folderWays_libSlashes {n : Nat} (h : n + 4 ≤ FileSystem.maxPath) :
    Container.folderWays libraryTree (libSlashes (n + 1))
      = if n + 5 ≤ FileSystem.maxPath then libraryWays else [pathSteps "Tool.class"] := by
  have hp : (Node.ofEntries [("note", .ofContent ⟨#[0x67]⟩),
      ("Frame.class", .ofContent frameContent)]).files = [[.ofText "Frame.class"], [.ofText "note"]] :=
    Node.files_folder_of_perm [(.ofText "Frame.class", [[]]), (.ofText "note", [[]])] rfl (.swap ..)
      (by decide)
  have hentries : Node.filesOfEntries {} [(.ofText "Tool.class", .ofContent toolContent),
      (.ofText "p", .ofEntries [("note", .ofContent ⟨#[0x67]⟩),
        ("Frame.class", .ofContent frameContent)])]
      = [(.ofText "Tool.class", [[]]), (.ofText "p", [[.ofText "Frame.class"], [.ofText "note"]])] := by
    rw [← hp]
    rfl
  have hfiles : library.files = libraryWays :=
    (Node.files_folder_of_perm _ rfl (.of_eq hentries) (by decide)).trans (by decide)
  have htool : Container.isInReach (libSlashes (n + 1)) (pathSteps "Tool.class") = true := by
    have hfolder : (pathSteps "Tool.class").dropLast = [] := by decide
    simp only [Container.isInReach, hfolder, pathSize_libSlashes, List.foldl_nil, decide_eq_true_eq]
    omega
  -- Both other files stand in one subfolder.
  have hbelow (path : String) (hfolder : (pathSteps path).dropLast = [.ofText "p"]) :
      Container.isInReach (libSlashes (n + 1)) (pathSteps path)
        = decide (n + 5 ≤ FileSystem.maxPath) := by
    simp only [Container.isInReach, hfolder, pathSize_libSlashes, List.foldl_cons, List.foldl_nil]
    rfl
  rw [Container.folderWays, isStandardInput_libSlashes, stat_libSlashes h]
  by_cases hn : n + 5 ≤ FileSystem.maxPath <;>
    simp [hfiles, libraryWays, htool, hbelow "p/Frame.class" (by decide),
      hbelow "p/note" (by decide), hn]

/-- Hence the class in the subfolder is a root of the shorter paths only. -/
theorem rootsOfContainer_libSlashes {n : Nat} (h : n + 4 ≤ FileSystem.maxPath) :
    rootsOfContainer libraryTree (libSlashes (n + 1))
      = .ok (if n + 5 ≤ FileSystem.maxPath then [tool, frame] else [tool]) := by
  have hboth : classesOfPaths (libraryWays.map Container.pathText) = [tool, frame] := by
    decide
  have hone : classesOfPaths ([pathSteps "Tool.class"].map Container.pathText) = [tool] := by
    decide
  rw [rootsOfContainer, ofLocation_libSlashes h]
  show Except.ok (classesOfPaths (Container.folderFiles libraryTree (libSlashes (n + 1)))) = _
  rw [Container.folderFiles, folderWays_libSlashes h]
  split
  · rw [hboth]
  · rw [hone]

/-- With ten bytes more, no path of an entry can be followed. -/
theorem lacksEntry_libSlashes {n : Nat} (h : FileSystem.maxPath < n + 13) :
    (Container.folder (libSlashes n) false).LacksEntry libraryTree tool.path := by
  have hpath : Container.entryPath (libSlashes n) tool.path
      = joinPath (libSlashes n) "Tool.class" := by
    have hnames : (pathNames tool.path).filter (· ≠ "") = ["Tool.class"] := by decide
    rw [Container.entryPath, hnames]
    rfl
  have hsize := add_utf8ByteSize_le_joinPath (libSlashes n) "Tool.class"
  have hname : "Tool.class".utf8ByteSize = 10 := by decide
  rw [utf8ByteSize_libSlashes, hname] at hsize
  rw [Container.lacksEntry_folder_iff, hpath]
  exact FileSystem.fileAt?_of_maxPath_lt (by omega)

end Sample

namespace ClassPath

open Sample (frame libSlashes libraryTree tool)

variable {cp : ClassPath}

/-- **Which roots a class path with their container lacks.** The container gives out each root that is
    listed under its own names and not sealed, hence such a root is not missing, and if they all are
    such, the closure fails over no missing root. -/
theorem not_lacks_of_rootsOfContainer (ho : fs.isOrderly = true)
    (hc : Container.ofLocation fs location = .ok c) (hm : c ∈ cp.containers)
    (hr : rootsOfContainer fs location = .ok roots) :
    (∀ r ∈ roots, c.ListsItself fs r.path ∨ c.Blurs fs r.path)
      ∧ (∀ r ∈ roots, c.ListsItself fs r.path →
        (c.LacksEntry fs r.path ↔ c.isSealed fs r.path = true))
      ∧ (∀ r ∈ roots, c.ListsItself fs r.path → c.isSealed fs r.path = false →
        ¬ (cp.source fs).Lacks r)
      ∧ ((∀ r ∈ roots, c.ListsItself fs r.path ∧ c.isSealed fs r.path = false) →
        ∀ r, cp.closure fs roots ≠ .error (.missingRoot r)) := by
  obtain ⟨paths, hf, -⟩ := files_of_rootsOfContainer hc hr
  have lacksEntry_iff : ∀ r ∈ roots, c.ListsItself fs r.path →
      (c.LacksEntry fs r.path ↔ c.isSealed fs r.path = true) := fun r _ hlists =>
    Container.lacksEntry_iff_isSealed ho hc hf hlists r.toList_path
  have not_lacks : ∀ r ∈ roots, c.ListsItself fs r.path → c.isSealed fs r.path = false →
      ¬ (cp.source fs).Lacks r := by
    intro r hr hlists hl hlacks
    rw [(lacksEntry_iff r hr hlists).1 (lacks_source_iff.1 hlacks c hm)] at hl
    simp at hl
  refine ⟨fun r hmem => (mem_rootsOfContainer_iff_lists ho hc hr).1 hmem, lacksEntry_iff, not_lacks,
    fun hl r h => ?_⟩
  -- A missing root is one that the class path lacks, and no other fault is taken for one.
  rcases ClassSource.fault_of_closure h with ⟨b, hb, hlacks, -⟩ | ⟨n, -, hfault⟩
  · exact not_lacks b hb (hl b hb).1 (hl b hb).2 hlacks
  · exact ne_missingRoot_of_faulty hfault r rfl

/-- Behind another container, both classes are found, the one in the subfolder as well. -/
theorem not_lacks_of_rootsOfContainer_libraryTree :
    let cp : ClassPath := ⟨[.folder "first" false, .folder (libSlashes 1) false]⟩
    rootsOfContainer libraryTree (libSlashes 1) = .ok [tool, frame]
      ∧ ¬ (cp.source libraryTree).Lacks tool ∧ ¬ (cp.source libraryTree).Lacks frame
      ∧ ∀ r, cp.closure libraryTree [tool, frame] ≠ .error (.missingRoot r) := by
  intro cp
  have hroots : rootsOfContainer libraryTree (libSlashes 1) = .ok [tool, frame] :=
    Sample.rootsOfContainer_libSlashes (n := 0) (by decide)
  have hgood : ∀ r ∈ [tool, frame],
      (Container.folder (libSlashes 1) false).ListsItself libraryTree r.path
        ∧ (Container.folder (libSlashes 1) false).isSealed libraryTree r.path = false := by
    -- The folder lists both class files, and neither path is too long.
    have hways := Sample.folderWays_libSlashes (n := 0) (by decide)
    intro r hr
    constructor
    · show pathSteps r.path ∈ Container.folderWays libraryTree (libSlashes 1)
      rw [hways]
      revert r
      decide
    · rw [Container.isSealed_folder_eq_false_iff (Sample.stat_libSlashes (n := 1) (by decide))]
      revert r
      decide
  have hmem : Container.folder (libSlashes 1) false ∈ cp.containers := by simp [cp]
  obtain ⟨-, -, hlacks, hclosure⟩ := not_lacks_of_rootsOfContainer (by decide)
    (Sample.ofLocation_libSlashes (n := 1) (by decide)) hmem hroots
  have hfound : ∀ r ∈ [tool, frame], ¬ (cp.source libraryTree).Lacks r :=
    fun r hr => hlacks r hr (hgood r hr).1 (hgood r hr).2
  exact ⟨hroots, hfound tool (by simp), hfound frame (by simp), hclosure hgood⟩

/-- With too many separators a class is a root and missing, although nothing but its container is searched. -/
theorem closure_missingRoot_libraryTree :
    libraryTree.isOrderly = true
      ∧ Container.ofLocation libraryTree (libSlashes 4092) = .ok (.folder (libSlashes 4092) false)
      ∧ rootsOfContainer libraryTree (libSlashes 4092) = .ok [tool]
      ∧ (⟨[.folder (libSlashes 4092) false]⟩ : ClassPath).closure libraryTree [tool]
        = .error (.missingRoot tool) := by
  refine ⟨by decide, Sample.ofLocation_libSlashes (by decide),
    Sample.rootsOfContainer_libSlashes (n := 4091) (by decide), ClassSource.closure_of_lacks_head ?_ []⟩
  rw [lacks_source_iff]
  simp only [List.mem_singleton, forall_eq]
  exact Sample.lacksEntry_libSlashes (by decide)

/-- A file whose name is no UTF-8 gives a root that is nowhere. -/
example : rootsOfContainer Sample.lossyTree "d" = .ok [⟨"A\ufffd"⟩, ⟨"A\ufffd"⟩]
    ∧ (Container.folder "d" false).LacksEntry Sample.lossyTree (⟨"A\ufffd"⟩ : ClassName).path := by
  constructor
  · rw [rootsOfContainer_of_stat Sample.stat_lossyTree, Sample.folderWays_lossyTree]
    decide +kernel
  · exact Container.lacksEntry_folder_of_at? Sample.stat_lossyTree (by decide) (by decide) rfl

end ClassPath

end PrimaryDex
