import PrimaryDex.Proofs.ClassPath.FirstMatch
import PrimaryDex.Proofs.FileTree.Following

namespace PrimaryDex

/-!
# What a container lists and what it gives out

A list of entries is made by other means than an entry is opened by, and neither sees all that the
other sees.

* `Zip.Archive.mem_fileNames_iff`, `Container.mem_folderWays_iff` — what is listed;
* `Container.isSealed` — whether an entry cannot be opened for its path alone. It may be listed
  nevertheless (`lacksEntry_iff_isSealed`);
* `Container.hides` — whether an entry that can be opened, or exists at least, is left out of the list;
* `Container.ListsItself`, `Blurs` — whether a listed path is that of an entry, or only what its names
  are shown as (`mem_files_iff`);
* `Container.listsItself_iff` — apart from these, what is listed and what is opened agree.
-/

/-! ### Archives -/

namespace Zip

namespace Archive

variable {a : Archive} {name : String} {names : List String} {e : Entry}

/-- An entry is listed under its name if it is no folder and can be opened. -/
theorem fileName?_eq_some_iff : a.fileName? e = .ok (some name)
    ↔ e.name = name ∧ e.isFolder = false ∧ ∃ start, e.dataStart a.bytes = .ok start := by
  unfold fileName?
  split
  · rename_i start hs
    cases e.isFolder <;> simp [hs]
  · rename_i hs
    simp [hs]
  · rename_i hs
    simp [hs]

/-- The listed names are those of the entries that are no folders and can be opened. -/
theorem mem_fileNames_iff (h : a.fileNames = .ok names) : name ∈ names
    ↔ ∃ e ∈ a.entries, e.name = name ∧ e.isFolder = false
      ∧ ∃ start, e.dataStart a.bytes = .ok start := by
  simp only [mem_filterMapM_iff h, fileName?_eq_some_iff]

/-- An entry is found if there is one. -/
theorem find?_eq_none_iff : a.find? name = none ↔ ∀ e ∈ a.entries, e.name ≠ name := by
  simp [find?]

/-- What is found is an entry of the name. -/
theorem name_of_find? (h : a.find? name = some e) : e ∈ a.entries ∧ e.name = name := by
  refine ⟨List.mem_reverse.1 (List.mem_of_find?_eq_some h), ?_⟩
  simpa using List.find?_some h

end Archive

end Zip

/-! ### Names and the paths that they are shown as -/

namespace Container

/-- The names of a path are shown as the path. -/
theorem pathText_pathSteps (path : String) : pathText (pathSteps path) = path := by
  rw [pathText, pathSteps, List.map_map]
  simp [Function.comp_def, intercalate_pathNames]

/-- Names that are UTF-8 are found again in the path that they are shown as. -/
theorem pathSteps_pathText {names : List FileName} (hne : names ≠ [])
    (h : ∀ name ∈ names, isEntryName name = true) (ht : ∀ name ∈ names, name.isText = true) :
    pathSteps (pathText names) = names := by
  have hback : ∀ name ∈ names, FileName.ofText name.text = name :=
    fun name hname => FileName.isText_iff.1 (ht name hname)
  have hslash : ∀ t ∈ names.map FileName.text, '/' ∉ t.toList := by
    intro t hmem
    obtain ⟨name, hname, rfl⟩ := List.mem_map.1 hmem
    refine (not_mem_of_isEntryName ?_).1
    rw [hback name hname]
    exact h name hname
  rw [pathText, pathSteps, pathNames_intercalate (by simpa using hne) hslash, List.map_map]
  exact (List.map_congr_left hback).trans (List.map_id _)

/-! ### Lengths of paths -/

/-- One name more makes a path longer by the name and a separator. -/
theorem pathSize_append_singleton (location : String) (names : List FileName) (name : FileName) :
    pathSize location (names ++ [name]) = pathSize location names + 1 + name.size := by
  simp only [pathSize, List.foldl_append, List.foldl_cons, List.foldl_nil]

/-- The path of the folder that has a file is no longer than that of the file. -/
theorem pathSize_dropLast_le (location : String) (names : List FileName) :
    pathSize location names.dropLast ≤ pathSize location names := by
  by_cases hne : names = []
  · rw [hne]
    exact Nat.le_refl _
  · conv => rhs; rw [← List.dropLast_concat_getLast hne]
    rw [pathSize_append_singleton]
    omega

/-- From a path with a name behind it, the size goes on as from the path before that name. -/
theorem pathSize_joinPath {location name : String} (hl : location ≠ "") (hne : name ≠ "")
    (hs : '/' ∉ name.toList) (names : List FileName) :
    pathSize (joinPath location name) names = pathSize location (.ofText name :: names) := by
  have hpos : 0 < location.utf8ByteSize := Nat.pos_of_ne_zero (by simpa using hl)
  have hname : (joinPath location name).toList.getLast? ≠ some '/' := by
    obtain ⟨start, -, hjoin⟩ := exists_joinPath_eq hl
    rw [hjoin]
    exact getLast?_append_name start hne hs
  -- Both start from the same size.
  have hstart : (joinPath location name).utf8ByteSize
      = location.utf8ByteSize - (if location.toList.getLast? = some '/' then 1 else 0) + 1
        + name.utf8ByteSize := by
    unfold joinPath
    rw [if_neg hl]
    split
    · rw [String.utf8ByteSize_append]
      omega
    · rw [String.utf8ByteSize_append, String.utf8ByteSize_append]
      rfl
  simp only [pathSize, if_neg hname, hstart, List.foldl_cons, FileName.size_ofText, Nat.sub_zero]

/-- A path has at least the size that its names say. -/
theorem pathSize_le {location : String} {names : List String} (hl : location ≠ "")
    (h : ∀ name ∈ names, name ≠ "" ∧ '/' ∉ name.toList) :
    pathSize location (names.map FileName.ofText) ≤ (names.foldl joinPath location).utf8ByteSize := by
  induction names generalizing location with
  | nil => exact Nat.sub_le ..
  | cons name names ih =>
    obtain ⟨hne, hs⟩ := h name (List.mem_cons_self ..)
    rw [List.map_cons, ← pathSize_joinPath hl hne hs]
    exact ih (joinPath_ne_empty hl name) fun n hn => h n (List.mem_cons_of_mem _ hn)

/-! ### Folders -/

variable {fs : FileSystem} {c : Container} {location path : String} {access : FolderAccess}
  {es : List (FileName × Node)} {names : List FileName}

/-- Whether the entry at a path can not be opened, whatever it is: the way to it is longer than any path
    may be, or leads through a folder that can not be searched. -/
def isSealed (fs : FileSystem) (c : Container) (path : String) : Bool :=
  match c with
  | folder location _ =>
    decide (FileSystem.maxPath < (entryPath location path).utf8ByteSize) || match fs.stat location with
      | .ok n => n.passes (·.toSearch) (pathSteps path)
      | .error _ => false
  | archive _ _ => false

/-- Whether an entry is left out of the list of all entries: in a folder one behind a link or below a
    folder that can not be listed, or any if the folder is called like standard input; in an archive one
    that cannot be opened. -/
def hides (fs : FileSystem) (c : Container) (path : String) : Bool :=
  match c with
  | folder location _ =>
    isStandardInput location || match fs.stat location with
      | .ok n => n.meetsLink (pathSteps path) || n.passes (·.toList) (pathSteps path)
      | .error _ => false
  | archive _ none => false
  | archive _ (some a) =>
    let named := a.entries.filter (·.name = path)
    !named.isEmpty && named.all fun e => (e.dataStart a.bytes).toOption.isNone

/-- Something is listed under its own names, which the path stands for. -/
def ListsItself (fs : FileSystem) (c : Container) (path : String) : Prop :=
  match c with
  | folder location _ => pathSteps path ∈ folderWays fs location
  | archive _ none => False
  | archive _ (some a) => ∃ names, a.fileNames = .ok names ∧ path ∈ names

/-- Something is listed whose names are no UTF-8 and are only shown as the path. -/
def Blurs (fs : FileSystem) (c : Container) (path : String) : Prop :=
  match c with
  | folder location _ => ∃ names ∈ folderWays fs location, pathText names = path
    ∧ ∃ name ∈ names, name.isText = false
  | archive _ _ => False

/-- A folder lists what its tree lists within reach, unless it is called like standard input. -/
theorem folderWays_of_stat {n : Node} (hs : fs.stat location = .ok n)
    (h : isStandardInput location = false) :
    folderWays fs location = n.files.filter (isInReach location) := by
  rw [folderWays, h, hs]
  rfl

/-- The names that lead to the listed files of a folder. -/
theorem mem_folderWays_iff (ho : fs.isOrderly = true)
    (hs : fs.stat location = .ok (.folder access es)) :
    names ∈ folderWays fs location ↔ isStandardInput location = false
      ∧ isInReach location names = true ∧ (Node.folder access es).Shows names := by
  unfold folderWays
  cases isStandardInput location with
  | true => simp
  | false =>
    simp only [Bool.false_eq_true, if_false, hs, List.mem_filter,
      Node.mem_files_iff (FileSystem.isOrderly_of_stat ho hs), true_and]
    exact and_comm

/-- What is listed under a path has the names of the path, or is only shown as it. -/
theorem mem_folderFiles_iff (ho : fs.isOrderly = true)
    (hs : fs.stat location = .ok (.folder access es)) {closed : Bool} :
    path ∈ folderFiles fs location
      ↔ (folder location closed).ListsItself fs path ∨ (folder location closed).Blurs fs path := by
  rw [folderFiles, List.mem_map]
  constructor
  · rintro ⟨names, hways, rfl⟩
    by_cases ht : ∀ name ∈ names, name.isText = true
    · -- A file of the folder is not the folder itself.
      obtain ⟨-, -, -, -, fileAccess, content, hat⟩ := (mem_folderWays_iff ho hs).1 hways
      have hne : names ≠ [] := by
        rintro rfl
        simp [Node.at?] at hat
      have hentry := (Node.isOrderly_of_at? (FileSystem.isOrderly_of_stat ho hs) hat).2
      refine .inl ?_
      show pathSteps (pathText names) ∈ folderWays fs location
      rwa [pathSteps_pathText hne hentry ht]
    · refine .inr ⟨names, hways, rfl, ?_⟩
      simpa using ht
  · rintro (hways | ⟨names, hways, htext, -⟩)
    · exact ⟨_, hways, pathText_pathSteps path⟩
    · exact ⟨names, hways, htext⟩

/-- The names of a file's path in an orderly folder are names of entries. -/
theorem isEntryName_of_at? {n m : Node} (ho : n.isOrderly = true)
    (hm : n.at? (pathSteps path) = some m) {name : String} (hname : name ∈ pathNames path) :
    isEntryName (.ofText name) = true :=
  (Node.isOrderly_of_at? ho hm).2 _ (List.mem_map.2 ⟨name, hname, rfl⟩)

/-- An entry of a folder is in reach if its path is short enough and all folders on the way can be
    searched. -/
theorem isSealed_folder_eq_false_iff (hs : fs.stat location = .ok (.folder access es))
    {closed : Bool} : (folder location closed).isSealed fs path = false
      ↔ (entryPath location path).utf8ByteSize ≤ FileSystem.maxPath
        ∧ (Node.folder access es).passes (·.toSearch) (pathSteps path) = false := by
  simp only [isSealed, hs, Bool.or_eq_false_iff, decide_eq_false_iff_not, Nat.not_lt]

/-- A file of a folder cannot be found exactly if it is sealed. -/
theorem lacksEntry_folder_iff_isSealed (ho : fs.isOrderly = true)
    (hs : fs.stat location = .ok (.folder access es)) {fileAccess : FileAccess} {content : ByteArray}
    (hm : (Node.folder access es).at? (pathSteps path) = some (.file fileAccess content)) :
    (folder location false).LacksEntry fs path ↔ (folder location false).isSealed fs path = true := by
  have hentry : ∀ name ∈ pathNames path, isEntryName (.ofText name) = true :=
    fun _ => isEntryName_of_at? (FileSystem.isOrderly_of_stat ho hs) hm
  rw [lacksEntry_folder_iff, ← Bool.not_eq_false, isSealed_folder_eq_false_iff hs]
  constructor
  · rintro hnone ⟨hsize, hopen⟩
    rw [fileAt?_entryPath_of_at? hs hm hentry hopen hsize] at hnone
    simp at hnone
  · -- A file that was found would have been in reach.
    refine fun hsealed => Option.eq_none_iff_forall_ne_some.2 fun found hf => hsealed ⟨?_, ?_⟩
    · refine Nat.not_lt.1 fun hsize => ?_
      rw [FileSystem.fileAt?_of_maxPath_lt hsize] at hf
      simp at hf
    · have hdown : ∀ name ∈ pathNames path, goesDown (.ofText name) = true :=
        fun name hname => (isEntryName_iff.1 (hentry name hname)).1
      exact (at?_of_fileAt?_entryPath hs hdown (Node.meetsLink_of_at? hm (by simp)) hf).2

/-- A class file of a folder that is not sealed is listed under its names exactly if it can be found and is
    not hidden. -/
theorem listsItself_folder_iff (ho : fs.isOrderly = true)
    (hs : fs.stat location = .ok (.folder access es))
    (hp : ∀ name ∈ pathNames path, goesDown (.ofText name) = true)
    (hl : (folder location false).isSealed fs path = false) :
    (folder location false).ListsItself fs path
      ↔ ¬ (folder location false).LacksEntry fs path
        ∧ (folder location false).hides fs path = false := by
  have heq : entryPath location path = (pathNames path).foldl joinPath location :=
    entryPath_eq fun name hname => (goesDown_ofText_iff.1 (hp name hname)).1
  obtain ⟨hsize, hopen⟩ := (isSealed_folder_eq_false_iff hs).1 hl
  have hne : location ≠ "" :=
    (FileSystem.refusal?_eq_none_iff.1 (FileSystem.stat_eq_ok_iff.1 hs).1).2.2
  have hnames : ∀ name ∈ pathNames path, name ≠ "" ∧ '/' ∉ name.toList := fun name hname =>
    ⟨(goesDown_ofText_iff.1 (hp name hname)).1, not_mem_of_mem_pathNames hname⟩
  -- A path that can be opened is short enough for the walk, too.
  have hreach : isInReach location (pathSteps path) = true := by
    refine decide_eq_true (Nat.le_trans (pathSize_dropLast_le _ _) ?_)
    rw [heq] at hsize
    exact Nat.le_trans (pathSize_le hne hnames) hsize
  show pathSteps path ∈ folderWays fs location ↔ _
  rw [mem_folderWays_iff ho hs, Node.shows_iff]
  simp only [hides, hs, Bool.or_eq_false_iff, hreach, Node.passes_dropLast hopen, true_and]
  constructor
  · rintro ⟨hstd, hlisted, fileAccess, content, hm⟩
    refine ⟨?_, hstd, Node.meetsLink_of_at? hm (by simp), hlisted⟩
    rw [lacksEntry_folder_iff_isSealed ho hs hm, hl]
    simp
  · rintro ⟨hfound, hstd, hlink, hlisted⟩
    refine ⟨hstd, hlisted, ?_⟩
    rw [lacksEntry_folder_iff] at hfound
    obtain ⟨⟨fileAccess, content⟩, hf⟩ := Option.ne_none_iff_exists'.1 hfound
    exact ⟨fileAccess, content, (at?_of_fileAt?_entryPath hs hp hlink hf).1⟩

/-! ### Archives -/

/-- An entry with the name of a class file is no folder. -/
theorem isFolder_of_name {e : Zip.Entry} {t : List Char}
    (h : e.name.toList = t ++ ClassName.extension) : e.isFolder = false := by
  rw [Zip.Entry.isFolder, h, List.getLast?_append]
  rfl

/-- An archive is passed over for a class file exactly if no entry has its name. -/
theorem lacksEntry_archive_iff_ne {a : Zip.Archive} {t : List Char}
    (hp : path.toList = t ++ ClassName.extension) :
    (archive location (some a)).LacksEntry fs path ↔ ∀ e ∈ a.entries, e.name ≠ path := by
  rw [lacksEntry_archive_iff, ← Zip.Archive.find?_eq_none_iff]
  constructor
  · -- Only a folder's entry is passed over, and no folder has the name of a class file.
    refine fun h => Option.eq_none_iff_forall_ne_some.2 fun e he => ?_
    have hname := (Zip.Archive.name_of_find? he).2
    have hfile := isFolder_of_name (e := e) (hname ▸ hp)
    simp [(h e he).1] at hfile
  · intro h e he
    simp [h] at he

/-- An archive hides nothing of a name exactly if it has no such entry or one that can be opened. -/
theorem hides_archive_eq_false_iff {a : Zip.Archive} :
    (archive location (some a)).hides fs path = false ↔ (∀ e ∈ a.entries, e.name ≠ path)
      ∨ ∃ e ∈ a.entries, e.name = path ∧ ∃ start, e.dataStart a.bytes = .ok start := by
  have hopens (e : Zip.Entry) : (e.dataStart a.bytes).toOption.isNone = false
      ↔ ∃ start, e.dataStart a.bytes = .ok start := by
    cases e.dataStart a.bytes <;> simp [Except.toOption]
  simp only [hides, Bool.and_eq_false_iff, Bool.not_eq_false', List.isEmpty_iff,
    List.filter_eq_nil_iff, decide_eq_true_eq, List.all_eq_false, List.mem_filter,
    Bool.not_eq_true, hopens, and_assoc, ne_eq]

/-- A class file of an archive is listed exactly if there is an entry for it and none is hidden. -/
theorem listsItself_archive_iff {a : Zip.Archive} {names : List String} {t : List Char}
    (h : a.fileNames = .ok names) (hp : path.toList = t ++ ClassName.extension) :
    (archive location (some a)).ListsItself fs path ↔ ¬ (archive location (some a)).LacksEntry fs path
      ∧ (archive location (some a)).hides fs path = false := by
  have hlists : (archive location (some a)).ListsItself fs path ↔ path ∈ names := by
    constructor
    · rintro ⟨names', h', hmem⟩
      rwa [← Except.ok.inj (h.symm.trans h')] at hmem
    · exact fun hmem => ⟨names, h, hmem⟩
  rw [hlists, Zip.Archive.mem_fileNames_iff h, lacksEntry_archive_iff_ne hp,
    hides_archive_eq_false_iff]
  constructor
  · rintro ⟨e, he, hname, -, hs⟩
    exact ⟨fun hall => hall e he hname, .inr ⟨e, he, hname, hs⟩⟩
  · rintro ⟨hex, hopen⟩
    obtain ⟨e, he, hname, hs⟩ := hopen.resolve_left hex
    exact ⟨e, he, hname, isFolder_of_name (hname ▸ hp), hs⟩

/-! ### Open containers -/

/-- What a location is opened as. -/
theorem of_ofLocation (h : ofLocation fs location = .ok c) :
    (∃ access es, c = .folder location false ∧ fs.stat location = .ok (.folder access es))
      ∨ ∃ a, c = .archive location (some a) := by
  unfold ofLocation at h
  split at h
  · simp at h
  · simp at h
  · rename_i access es hs
    exact .inl ⟨access, es, (Except.ok.inj h).symm, hs⟩
  · split at h
    · simp at h
    · split at h
      · rename_i a _
        exact .inr ⟨a, (Except.ok.inj h).symm⟩
      · simp at h
  · simp at h

/-- A location that leads to a folder is opened as that folder. -/
theorem ofLocation_of_stat (hs : fs.stat location = .ok (.folder access es)) :
    ofLocation fs location = .ok (.folder location false) := by
  rw [ofLocation, hs]

/-- What an open archive lists are the names of its files. -/
theorem fileNames_of_files {a : Zip.Archive} {paths : List String}
    (h : (archive location (some a)).files fs = .ok paths) : a.fileNames = .ok paths := by
  rw [files] at h
  cases ha : a.fileNames with
  | ok names =>
    rw [ha] at h
    exact congrArg _ (Except.ok.inj h)
  | error cause =>
    rw [ha] at h
    simp [Except.mapError] at h

/-- What an open container lists under a path has the names of the path, or is only shown as it. -/
theorem mem_files_iff {paths : List String} (ho : fs.isOrderly = true)
    (hc : ofLocation fs location = .ok c) (hf : c.files fs = .ok paths) :
    path ∈ paths ↔ c.ListsItself fs path ∨ c.Blurs fs path := by
  rcases of_ofLocation hc with ⟨access, es, rfl, hs⟩ | ⟨a, rfl⟩
  · obtain rfl := Except.ok.inj hf
    exact mem_folderFiles_iff ho hs
  · have hnames := fileNames_of_files hf
    refine ⟨fun hmem => .inl ⟨paths, hnames, hmem⟩, ?_⟩
    rintro (⟨names, h, hmem⟩ | hblurs)
    · rwa [Except.ok.inj (h.symm.trans hnames)] at hmem
    · exact hblurs.elim

/-- **What is listed and what can be found.** Of an open container, a class file that is not sealed is
    listed under its names exactly if there is an entry for it and that one is not hidden. -/
theorem listsItself_iff {paths : List String} {t : List Char} (ho : fs.isOrderly = true)
    (hc : ofLocation fs location = .ok c) (hf : c.files fs = .ok paths)
    (hp : path.toList = t ++ ClassName.extension)
    (hn : ∀ name ∈ pathNames path, goesDown (.ofText name) = true)
    (hl : c.isSealed fs path = false) :
    c.ListsItself fs path ↔ ¬ c.LacksEntry fs path ∧ c.hides fs path = false := by
  rcases of_ofLocation hc with ⟨access, es, rfl, hs⟩ | ⟨a, rfl⟩
  · exact listsItself_folder_iff ho hs hn hl
  · exact listsItself_archive_iff (fileNames_of_files hf) hp

/-- What is listed under its names is found unless it is sealed. -/
theorem lacksEntry_iff_isSealed {paths : List String} {t : List Char} (ho : fs.isOrderly = true)
    (hc : ofLocation fs location = .ok c) (hf : c.files fs = .ok paths)
    (hm : c.ListsItself fs path) (hp : path.toList = t ++ ClassName.extension) :
    c.LacksEntry fs path ↔ c.isSealed fs path = true := by
  rcases of_ofLocation hc with ⟨access, es, rfl, hs⟩ | ⟨a, rfl⟩
  · obtain ⟨-, -, -, -, fileAccess, content, hat⟩ := (mem_folderWays_iff ho hs).1 hm
    exact lacksEntry_folder_iff_isSealed ho hs hat
  · refine iff_of_false ?_ (by simp [isSealed])
    exact ((listsItself_archive_iff (fileNames_of_files hf) hp).1 hm).1

end Container

end PrimaryDex
