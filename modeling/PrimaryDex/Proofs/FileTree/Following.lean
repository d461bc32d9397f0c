import PrimaryDex.Proofs.FileTree.Orderly

namespace PrimaryDex.FileSystem

/-!
# Following names below a folder

* `exists_walk_append`, `walk_append_empty` — a path goes on where its first part leads, and a
  separator more between two parts makes no difference;
* `walk_of_at?`, `at?_of_walk_below` — below a folder, names lead to what stands at them, unless they
  come to a link or pass through a folder that cannot be searched (`stat_of_at?` for a whole path);
* `fileAt?_of_at?`, `at?_of_fileAt?` — so the files at the paths below that of a folder are those of
  the folder, as long as the path is not too long.
-/

variable {root n m : Node} {links : Nat} {here found xs ys steps : List FileName} {name : FileName}
  {access : FolderAccess} {es : List (FileName × Node)}

/-! ### One name -/

/-- An empty name stays in a folder, and it is not even looked up. -/
theorem walk_cons_of_empty (hn : root.at? here = some (.folder access es)) :
    walk root .target links here (FileName.ofText "" :: steps)
      = walk root .target links here steps := by
  rw [walk]
  simp [hn]

/-- A folder in which nothing can be looked up is the end of the way. -/
theorem walk_cons_of_refusal {cause : FileError} (hn : root.at? here = some (.folder access es))
    (hname : name ≠ "") (hs : access.toSearch = some cause) :
    walk root .target links here (name :: steps) = .error cause := by
  rw [walk]
  simp only [hn, if_neg hname, hs]

/-- A dot stays in the folder, which has to be searched for it. -/
theorem walk_cons_of_dot (hn : root.at? here = some (.folder access es))
    (hs : access.toSearch = none) :
    walk root .target links here (FileName.ofText "." :: steps)
      = walk root .target links here steps := by
  rw [walk]
  simp [hn, hs, FileName.ofText_inj]

/-- Two dots lead to the folder above. -/
theorem walk_cons_of_up (hn : root.at? here = some (.folder access es))
    (hs : access.toSearch = none) :
    walk root .target links here (FileName.ofText ".." :: steps)
      = walk root .target links here.dropLast steps := by
  rw [walk]
  simp [hn, hs, FileName.ofText_inj]

/-- A link is followed, which counts against their number. -/
theorem walk_cons_of_link {target : Route} (hn : root.at? here = some (.folder access es))
    (hs : access.toSearch = none) (hd : goesDown name = true) (hsize : name.size ≤ maxName)
    (hl : es.lookup name = some (.link target)) :
    walk root .target (links + 1) here (name :: steps)
      = walk root .target links (if target.absolute then [] else here)
          (target.names ++ steps) := by
  obtain ⟨hne, hdot, hup⟩ := goesDown_iff.1 hd
  rw [walk]
  simp [hn, hs, hne, hdot, hup, Nat.not_lt.2 hsize, hl]

/-- Any other entry is entered, be it a folder or not. -/
theorem walk_cons_of_entry {child : Node} (hn : root.at? here = some (.folder access es))
    (hs : access.toSearch = none) (hd : goesDown name = true) (hsize : name.size ≤ maxName)
    (hl : es.lookup name = some child) (hc : ∀ target, child ≠ .link target) :
    walk root .target links here (name :: steps)
      = walk root .target links (here ++ [name]) steps := by
  obtain ⟨hne, hdot, hup⟩ := goesDown_iff.1 hd
  rw [walk]
  cases child with
  | link target => exact absurd rfl (hc target)
  | _ => simp [hn, hs, hne, hdot, hup, Nat.not_lt.2 hsize, hl]

/-- The last name is that of an entry, for whatever purpose it is looked up. -/
theorem walk_last_of_entry {purpose : Purpose} {child : Node}
    (hn : root.at? here = some (.folder access es)) (hs : access.toSearch = none)
    (hd : goesDown name = true) (hsize : name.size ≤ maxName) (hl : es.lookup name = some child)
    (hc : ∀ target, child ≠ .link target) :
    walk root purpose links here [name] = .ok (.taken (here ++ [name]) child) := by
  obtain ⟨hne, hdot, hup⟩ := goesDown_iff.1 hd
  have hhere : root.at? (here ++ [name]) = some child := by
    simp [Node.at?_append, hn, Node.at?, Node.entries, hl]
  have hend : walk root purpose links (here ++ [name]) [] = .ok (.taken (here ++ [name]) child) := by
    rw [walk, hhere]
  rw [walk]
  simp [hn, hs, hne, hdot, hup, hsize, hl, hend]

/-- If no entry has the last name, it leads to a vacant place. -/
theorem walk_last_of_vacant {purpose : Purpose} (hn : root.at? here = some (.folder access es))
    (hs : access.toSearch = none) (hd : goesDown name = true) (hsize : name.size ≤ maxName)
    (hl : es.lookup name = none) :
    walk root purpose links here [name] = .ok (.vacant here name) := by
  obtain ⟨hne, hdot, hup⟩ := goesDown_iff.1 hd
  rw [walk]
  simp [hn, hs, hne, hdot, hup, hsize, hl]

/-! ### Parts of a path -/

/-- A path goes on where its first part leads. -/
theorem exists_walk_append (h : walk root .target links here xs = .ok (.taken found n)) :
    ∃ links', ∀ ys,
      walk root .target links here (xs ++ ys) = walk root .target links' found ys := by
  -- By the recursion of the walk. What stands behind the first part is handed through to its end.
  fun_induction walk root .target links here xs with
  | case1 links here n' hn =>
    simp only [Except.ok.injEq, Place.taken.injEq] at h
    exact ⟨links, fun ys => by rw [h.1, List.nil_append]⟩
  | case3 links here rest access es hn ih =>
    obtain ⟨links', hl⟩ := ih h
    exact ⟨links', fun ys => by rw [← hl, List.cons_append, walk_cons_of_empty hn]⟩
  | case5 links here rest access es hn hs _ ih =>
    obtain ⟨links', hl⟩ := ih h
    exact ⟨links', fun ys => by rw [← hl, List.cons_append, walk_cons_of_dot hn hs]⟩
  | case6 links here rest access es hn hs _ _ ih =>
    obtain ⟨links', hl⟩ := ih h
    exact ⟨links', fun ys => by rw [← hl, List.cons_append, walk_cons_of_up hn hs]⟩
  | case13 here name rest access es hn hne hs hdot hup _ hsize target hlook _ links ih =>
    obtain ⟨links', hl⟩ := ih h
    refine ⟨links', fun ys => ?_⟩
    rw [← hl, List.cons_append,
      walk_cons_of_link hn hs (goesDown_iff.2 ⟨hne, hdot, hup⟩) (Nat.not_lt.1 hsize) hlook,
      List.append_assoc]
    rfl
  | case14 links here name rest access es hn hne hs hdot hup _ hsize child hlink hlook ih =>
    obtain ⟨links', hl⟩ := ih h
    refine ⟨links', fun ys => ?_⟩
    rw [← hl, List.cons_append,
      walk_cons_of_entry hn hs (goesDown_iff.2 ⟨hne, hdot, hup⟩) (Nat.not_lt.1 hsize) hlook hlink]
  | _ => simp_all

/-- A separator more between two parts makes no difference. -/
theorem walk_append_empty (hys : ys ≠ []) (xs : List FileName) :
    walk root .target links here (xs ++ FileName.ofText "" :: ys)
      = walk root .target links here (xs ++ ys) := by
  fun_induction walk root .target links here xs with
  | case1 links here n hn =>
    obtain ⟨y, ys, rfl⟩ := List.exists_cons_of_ne_nil hys
    cases n with
    | folder access es => exact walk_cons_of_empty hn
    | _ =>
      rw [List.nil_append, List.nil_append, walk, walk]
      simp [hn]
  | case2 links here hn =>
    obtain ⟨y, ys, rfl⟩ := List.exists_cons_of_ne_nil hys
    rw [List.nil_append, List.nil_append, walk, walk]
    simp [hn]
  | _ =>
    -- The first name is treated alike, whatever follows.
    rw [List.cons_append, List.cons_append]
    unfold walk
    simp_all [-List.lookup_eq_none_iff]

/-! ### Names of entries -/

/-- Names that lead to something that is no link are followed to it, if each folder on the way can be
    searched. -/
theorem walk_of_at? (hn : root.at? here = some n) (hm : n.at? steps = some m)
    (hlink : ∀ target, m ≠ .link target) (hopen : n.passes (·.toSearch) steps = false)
    (h : ∀ name ∈ steps, isEntryName name = true) :
    walk root .target links here steps = .ok (.taken (here ++ steps) m) := by
  induction steps generalizing here n with
  | nil =>
    rw [Node.at?, Option.some.injEq] at hm
    rw [walk, hn, hm, List.append_nil]
  | cons name steps ih =>
    obtain ⟨hd, -, -, hsize⟩ := isEntryName_iff.1 (h name (List.mem_cons_self ..))
    obtain ⟨access, es, rfl, child, hl, hm⟩ := Node.exists_of_at?_cons hm
    obtain ⟨hs, hopen⟩ := (Node.passes_cons_eq_false_iff hl).1 hopen
    -- A link on the way would have no entries.
    have hc : ∀ target, child ≠ .link target := by
      rintro target rfl
      cases steps with
      | nil => exact hlink target (Option.some.inj hm).symm
      | cons => simp [Node.at?, Node.entries] at hm
    have hhere : root.at? (here ++ [name]) = some child := by
      simp [Node.at?_append, hn, Node.at?, Node.entries, hl]
    rw [walk_cons_of_entry hn hs hd hsize hl hc,
      ih hhere hm hopen fun m hm => h m (List.mem_cons_of_mem _ hm), List.append_assoc]
    rfl

/-- Names that come to no link are followed to what stands at them only if each folder on the way can be
    searched. -/
theorem at?_of_walk_below (hn : root.at? here = some n) (h : ∀ name ∈ steps, goesDown name = true)
    (hlink : n.meetsLink steps = false)
    (hw : walk root .target links here steps = .ok (.taken found m)) :
    n.at? steps = some m ∧ n.passes (·.toSearch) steps = false := by
  induction steps generalizing here n with
  | nil =>
    rw [walk, hn] at hw
    simp_all [Node.at?, Node.passes]
  | cons name steps ih =>
    have hd := h name (List.mem_cons_self ..)
    obtain ⟨hne, hdot, hup⟩ := goesDown_iff.1 hd
    cases n with
    | folder access es =>
      cases hs : access.toSearch with
      | some cause =>
        rw [walk_cons_of_refusal hn hne hs] at hw
        simp at hw
      | none =>
        by_cases hsize : maxName < name.size
        · rw [walk] at hw
          simp [hn, hs, hne, hdot, hup, hsize] at hw
        · cases hl : es.lookup name with
          | none =>
            rw [walk] at hw
            cases steps <;> simp [hn, hs, hne, hdot, hup, hsize, hl] at hw
          | some child =>
            have hchild : child.meetsLink steps = false := by
              simpa [Node.meetsLink, Node.entries, hl] using hlink
            have hc : ∀ target, child ≠ .link target := by
              rintro target rfl
              simp [Node.meetsLink] at hchild
            have hhere : root.at? (here ++ [name]) = some child := by
              simp [Node.at?_append, hn, Node.at?, Node.entries, hl]
            -- No refusal is left, so that the walk goes on in the child.
            rw [walk_cons_of_entry hn hs hd (Nat.not_lt.1 hsize) hl hc] at hw
            obtain ⟨hat, hopen⟩ :=
              ih hhere (fun m hm => h m (List.mem_cons_of_mem _ hm)) hchild hw
            refine ⟨by simpa [Node.at?, Node.entries, hl] using hat, ?_⟩
            exact (Node.passes_cons_eq_false_iff (n := .folder access es) hl).2 ⟨hs, hopen⟩
    | _ =>
      rw [walk] at hw
      simp [hn] at hw

/-- Names that lead down from the working folder to something that is no link are a path to it. -/
theorem stat_of_at? {fs : FileSystem} {path : String} (hpath : refusal? path = none)
    (hrelative : isAbsolutePath path = false) (hn : fs.root.at? fs.working = some n)
    (hm : n.at? (pathSteps path) = some m) (hlink : ∀ target, m ≠ .link target)
    (hopen : n.passes (·.toSearch) (pathSteps path) = false)
    (h : ∀ name ∈ pathSteps path, isEntryName name = true) : fs.stat path = .ok m := by
  refine stat_eq_ok_iff.2 ⟨hpath, fs.working ++ pathSteps path, ?_⟩
  rw [hrelative]
  exact walk_of_at? hn hm hlink hopen h

/-! ### Files below a folder -/

/-- A file is at a path exactly if the path leads to one. -/
theorem fileAt?_eq_some_iff {fs : FileSystem} {path : String} {access : FileAccess}
    {content : ByteArray} :
    fs.fileAt? path = some (access, content) ↔ fs.stat path = .ok (.file access content) := by
  unfold fileAt?
  split <;> simp_all

/-- At a path that is too long there is no file. -/
theorem fileAt?_of_maxPath_lt {fs : FileSystem} {path : String} (h : maxPath < path.utf8ByteSize) :
    fs.fileAt? path = none := by
  refine Option.eq_none_iff_forall_ne_some.2 fun found hf => ?_
  have hr := (stat_eq_ok_iff.1 (fileAt?_eq_some_iff.1 hf)).1
  exact Nat.not_le.2 h (refusal?_eq_none_iff.1 hr).2.1

/-- A separator more at the end of a folder's path makes no difference, unless the path gets too
    long. -/
theorem stat_append_slash {fs : FileSystem} {path : String}
    (h : fs.stat path = .ok (.folder access es)) (hsize : (path ++ "/").utf8ByteSize ≤ maxPath) :
    fs.stat (path ++ "/") = .ok (.folder access es) := by
  obtain ⟨hr, found, hw⟩ := stat_eq_ok_iff.1 h
  obtain ⟨hnul, -, hne⟩ := refusal?_eq_none_iff.1 hr
  obtain ⟨links, hl⟩ := exists_walk_append hw
  have hn := at?_of_walk hw
  have habs : isAbsolutePath (path ++ "/") = isAbsolutePath path := by
    obtain ⟨c, t, hct⟩ := List.exists_cons_of_ne_nil (l := path.toList) (by simpa using hne)
    simp [isAbsolutePath, hct]
  refine stat_eq_ok_iff.2 ⟨refusal?_eq_none_iff.2 ⟨by simp [hnul], hsize, by simp⟩, found, ?_⟩
  rw [habs, pathSteps_append_slash_empty]
  exact (hl [FileName.ofText ""]).trans (by rw [walk_cons_of_empty hn, walk, hn])

/-- A path below that of a folder goes on where the folder is. -/
theorem exists_locateNames_below {fs : FileSystem} {location : String}
    (h : fs.stat location = .ok n) : ∃ links found, fs.root.at? found = some n
      ∧ ∀ names : List String, names ≠ [] → (∀ name ∈ names, name ≠ "" ∧ '/' ∉ name.toList) →
        fs.locateNames .target (isAbsolutePath (names.foldl joinPath location))
            (pathSteps (names.foldl joinPath location))
          = walk fs.root .target links found (names.map FileName.ofText) := by
  obtain ⟨hr, found, hw⟩ := stat_eq_ok_iff.1 h
  have hne := (refusal?_eq_none_iff.1 hr).2.2
  obtain ⟨base, hbase, hnames⟩ := exists_pathSteps_foldl_joinPath hne
  obtain ⟨links, hl⟩ := exists_walk_append hw
  refine ⟨links, found, at?_of_walk hw, fun names hnil hn => ?_⟩
  rw [isAbsolutePath_foldl_joinPath hne, hnames names hnil hn, ← hl (names.map FileName.ofText)]
  unfold locateNames
  -- An empty last name of the folder's path is passed over.
  rcases hbase with hb | hb
  · rw [hb]
  · rw [hb, List.append_assoc, List.singleton_append, walk_append_empty (by simpa using hnil)]

/-- The files of a folder are at the paths below that of the folder, if these are not too long and the
    folders on the way can be searched. -/
theorem fileAt?_of_at? {fs : FileSystem} {location : String} {names : List String}
    {access : FileAccess} {content : ByteArray} (hs : fs.stat location = .ok n)
    (hm : n.at? (names.map FileName.ofText) = some (.file access content)) (hne : names ≠ [])
    (h : ∀ name ∈ names, isEntryName (.ofText name) = true)
    (hopen : n.passes (·.toSearch) (names.map FileName.ofText) = false)
    (hsize : (names.foldl joinPath location).utf8ByteSize ≤ maxPath) :
    fs.fileAt? (names.foldl joinPath location) = some (access, content) := by
  obtain ⟨links, found, hn, hbelow⟩ := exists_locateNames_below hs
  have hnames : ∀ name ∈ names, name ≠ "" ∧ '/' ∉ name.toList := fun name hname =>
    ⟨(goesDown_ofText_iff.1 (isEntryName_iff.1 (h name hname)).1).1,
      (not_mem_of_isEntryName (h name hname)).1⟩
  rw [fileAt?_eq_some_iff, stat_eq_ok_iff]
  refine ⟨refusal?_foldl_joinPath (stat_eq_ok_iff.1 hs).1
    (fun name hname => (not_mem_of_isEntryName (h name hname)).2) hsize,
    found ++ names.map FileName.ofText, ?_⟩
  rw [hbelow names hne hnames]
  exact walk_of_at? hn hm (by simp) hopen (by simpa using h)

/-- What is at a path below that of a folder is a file of the folder, if its names come to no
    link, and the folders on the way can be searched. -/
theorem at?_of_fileAt? {fs : FileSystem} {location : String} {names : List String}
    {access : FileAccess} {content : ByteArray} (hs : fs.stat location = .ok n) (hne : names ≠ [])
    (h : ∀ name ∈ names, goesDown (.ofText name) = true ∧ '/' ∉ name.toList)
    (hlink : n.meetsLink (names.map FileName.ofText) = false)
    (hf : fs.fileAt? (names.foldl joinPath location) = some (access, content)) :
    n.at? (names.map FileName.ofText) = some (.file access content)
      ∧ n.passes (·.toSearch) (names.map FileName.ofText) = false := by
  obtain ⟨links, found, hn, hbelow⟩ := exists_locateNames_below hs
  obtain ⟨-, found', hw⟩ := stat_eq_ok_iff.1 (fileAt?_eq_some_iff.1 hf)
  have hnames : ∀ name ∈ names, name ≠ "" ∧ '/' ∉ name.toList :=
    fun name hname => ⟨(goesDown_ofText_iff.1 (h name hname).1).1, (h name hname).2⟩
  rw [hbelow names hne hnames] at hw
  refine at?_of_walk_below hn (fun step hstep => ?_) hlink hw
  obtain ⟨name, hname, rfl⟩ := List.mem_map.1 hstep
  exact (h name hname).1

end PrimaryDex.FileSystem
