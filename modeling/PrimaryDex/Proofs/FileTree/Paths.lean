import PrimaryDex.FileTree.Lookup

namespace PrimaryDex

open Text

/-!
# Paths and their names

A path is cut into the names that it was joined from.

* `goesDown`, `isEntryName` — the names that lead to an entry of a folder, and those that one can
  have;
* `intercalate_pathNames`, `pathNames_intercalate` — names between separators;
* `exists_pathSteps_foldl_joinPath` — names below a path, which may end in a separator;
* `isAbsolutePath_foldl_joinPath`, `refusal?_foldl_joinPath` — a longer path starts where its start
  does, and is no path only if it is too long or a name has a NUL.
-/

/-- Whether a name leads to an entry of the folder that it is looked up in. -/
def goesDown (name : FileName) : Bool := name ≠ "" && name ≠ "." && name ≠ ".."

/-- Whether an entry of a folder can have the name. -/
def isEntryName (name : FileName) : Bool :=
  goesDown name && !name.bytes.data.toList.contains 47 && !name.bytes.data.toList.contains 0
    && name.size ≤ FileSystem.maxName

/-- A name stays nowhere and leads not up if it is none of the three names that do. -/
theorem goesDown_iff {name : FileName} :
    goesDown name = true ↔ name ≠ "" ∧ name ≠ "." ∧ name ≠ ".." := by
  simp [goesDown, and_assoc]

theorem goesDown_ofText_iff {t : String} :
    goesDown (.ofText t) = true ↔ t ≠ "" ∧ t ≠ "." ∧ t ≠ ".." := by
  simp only [goesDown_iff, ne_eq, FileName.ofText_inj]

/-- An entry's name leads down, has neither a separator nor a NUL, and is not too long. -/
theorem isEntryName_iff {name : FileName} :
    isEntryName name = true ↔ goesDown name = true ∧ 47 ∉ name.bytes.data.toList
      ∧ 0 ∉ name.bytes.data.toList ∧ name.size ≤ FileSystem.maxName := by
  simp only [isEntryName, Bool.and_eq_true, Bool.not_eq_true', List.contains_eq_mem,
    decide_eq_false_iff_not, decide_eq_true_eq, and_assoc]

/-- The bytes of a text are those of its characters. -/
theorem mem_bytes_ofText {t : String} {c : Char} {b : UInt8} (hc : c ∈ t.toList)
    (hb : b ∈ String.utf8EncodeChar c) : b ∈ (FileName.ofText t).bytes.data.toList := by
  -- The bytes of a string are those of its list of characters.
  have hbytes : t.toUTF8 = t.toList.utf8Encode := by
    rw [String.toUTF8_eq_toByteArray, ← String.toByteArray_ofList, String.ofList_toList]
  rw [FileName.ofText, hbytes, List.utf8Encode]
  simpa using ⟨c, hc, hb⟩

/-- If an entry can have a text as its name, the text has neither a separator nor a NUL. -/
theorem not_mem_of_isEntryName {t : String} (h : isEntryName (.ofText t) = true) :
    '/' ∉ t.toList ∧ '\x00' ∉ t.toList := by
  obtain ⟨-, hslash, hnul, -⟩ := isEntryName_iff.1 h
  exact ⟨fun hc => hslash (mem_bytes_ofText hc (by decide)),
    fun hc => hnul (mem_bytes_ofText hc (by decide))⟩

/-! ### Names between separators -/

/-- No name of a path has a separator. -/
theorem not_mem_of_mem_pathNames {path name : String} (h : name ∈ pathNames path) :
    '/' ∉ name.toList := by
  obtain ⟨t, ht, rfl⟩ := List.mem_map.1 h
  rw [String.toList_ofList]
  exact not_mem_of_mem_pieces ht

/-- Every path has names, if only an empty one. -/
theorem pathNames_ne_nil (path : String) : pathNames path ≠ [] := by
  simp [pathNames, pieces_ne_nil]

theorem toList_intercalate (names : List String) :
    ("/".intercalate names).toList = ['/'].intercalate (names.map String.toList) := by
  rw [String.toList_intercalate]
  rfl

/-- Between separators, the names of a path give the path. -/
theorem intercalate_pathNames (path : String) : "/".intercalate (pathNames path) = path := by
  rw [← String.toList_inj, toList_intercalate, pathNames, List.map_map]
  simp [Function.comp_def, intercalate_pieces]

/-- Names without separators are found again in the path that is joined from them. -/
theorem pathNames_intercalate {names : List String} (hne : names ≠ [])
    (h : ∀ name ∈ names, '/' ∉ name.toList) : pathNames ("/".intercalate names) = names := by
  rw [pathNames, toList_intercalate, pieces_intercalate (by simpa using hne) (by simpa using h),
    List.map_map]
  simp [Function.comp_def]

/-- A separator between two paths separates their names. -/
theorem pathNames_append_slash (path rest : String) :
    pathNames (path ++ "/" ++ rest) = pathNames path ++ pathNames rest := by
  simp [pathNames, String.toList_append, pieces_append]

/-- A separator at the end of a path gives it an empty last name. -/
theorem pathNames_append_slash_empty (path : String) :
    pathNames (path ++ "/") = pathNames path ++ [""] := by
  have h := pathNames_append_slash path ""
  rwa [String.append_empty] at h

theorem pathSteps_append_slash_empty (path : String) :
    pathSteps (path ++ "/") = pathSteps path ++ [FileName.ofText ""] := by
  rw [pathSteps, pathNames_append_slash_empty, List.map_append]
  rfl

/-! ### Names below a path -/

/-- Names are joined to a path by a separator, unless there is one at its end. -/
theorem exists_joinPath_eq {path : String} (h : path ≠ "") : ∃ start,
    (path = start ∨ path = start ++ "/") ∧ ∀ name, joinPath path name = start ++ "/" ++ name := by
  unfold joinPath
  split
  · rename_i he
    exact absurd he h
  · split
    · rename_i hl
      obtain ⟨t, ht⟩ := List.getLast?_eq_some_iff.1 hl
      have hpath : path = String.ofList t ++ "/" := by
        rw [← String.toList_inj]
        simp [ht]
      exact ⟨String.ofList t, .inr hpath, fun name => by rw [← hpath]⟩
    · exact ⟨path, .inl rfl, fun _ => rfl⟩

/-- A path that ends in a name does not end in a separator. -/
theorem getLast?_append_name {name : String} (path : String) (hne : name ≠ "")
    (hs : '/' ∉ name.toList) : (path ++ "/" ++ name).toList.getLast? ≠ some '/' := by
  have hlast : (path ++ "/" ++ name).toList.getLast? = name.toList.getLast? := by
    rw [String.toList_append, List.getLast?_append,
      List.getLast?_eq_some_getLast (by simpa using hne), Option.some_or]
  rw [hlast]
  exact fun h => hs (List.mem_of_getLast? h)

/-- Behind a name, the next one is joined by a separator. -/
theorem joinPath_append {name : String} (path next : String) (hne : name ≠ "")
    (hs : '/' ∉ name.toList) :
    joinPath (path ++ "/" ++ name) next = path ++ "/" ++ name ++ "/" ++ next := by
  rw [joinPath, if_neg (by simp), if_neg (getLast?_append_name path hne hs)]

theorem foldl_joinPath_append {name : String} (path : String) {names : List String}
    (h : ∀ n ∈ name :: names, n ≠ "" ∧ '/' ∉ n.toList) :
    names.foldl joinPath (path ++ "/" ++ name)
      = path ++ "/" ++ "/".intercalate (name :: names) := by
  induction names generalizing path name with
  | nil => simp
  | cons next names ih =>
    obtain ⟨hne, hs⟩ := h name (List.mem_cons_self ..)
    rw [List.foldl_cons, joinPath_append path next hne hs,
      ih _ fun n hn => h n (List.mem_cons_of_mem _ hn), String.intercalate_cons_cons]
    simp [String.append_assoc]

/-- Several names are joined to a path as the names of one path. -/
theorem exists_foldl_joinPath_eq {path : String} (hpath : path ≠ "") : ∃ start,
    (path = start ∨ path = start ++ "/")
    ∧ ∀ names ≠ [], (∀ name ∈ names, name ≠ "" ∧ '/' ∉ name.toList) →
      names.foldl joinPath path = start ++ "/" ++ "/".intercalate names := by
  obtain ⟨start, hstart, hjoin⟩ := exists_joinPath_eq hpath
  refine ⟨start, hstart, fun names hne h => ?_⟩
  -- The first name settles whether a separator is put in. From then on each is.
  cases names with
  | nil => exact absurd rfl hne
  | cons name names => rw [List.foldl_cons, hjoin, foldl_joinPath_append start h]

/-- Names follow those of the path, of which an empty last one is dropped. -/
theorem exists_pathSteps_foldl_joinPath {path : String} (hpath : path ≠ "") : ∃ base,
    (pathSteps path = base ∨ pathSteps path = base ++ [FileName.ofText ""])
      ∧ ∀ names ≠ [], (∀ name ∈ names, name ≠ "" ∧ '/' ∉ name.toList) →
        pathSteps (names.foldl joinPath path) = base ++ names.map FileName.ofText := by
  obtain ⟨start, hstart, hjoin⟩ := exists_foldl_joinPath_eq hpath
  refine ⟨pathSteps start, ?_, fun names hne h => ?_⟩
  · refine hstart.imp (congrArg pathSteps) fun hp => ?_
    rw [hp, pathSteps_append_slash_empty]
  · rw [hjoin names hne h, pathSteps, pathNames_append_slash,
      pathNames_intercalate hne fun name hn => (h name hn).2, List.map_append]
    rfl

/-- A joined path has the bytes of both parts. -/
theorem add_utf8ByteSize_le_joinPath (path name : String) :
    path.utf8ByteSize + name.utf8ByteSize ≤ (joinPath path name).utf8ByteSize := by
  unfold joinPath
  split
  · rename_i he
    simp [he]
  · split <;> simp only [String.utf8ByteSize_append] <;> omega

/-- A longer path has no fewer bytes. -/
theorem utf8ByteSize_le_foldl_joinPath (path : String) (names : List String) :
    path.utf8ByteSize ≤ (names.foldl joinPath path).utf8ByteSize := by
  induction names generalizing path with
  | nil => exact Nat.le_refl _
  | cons name names ih =>
    exact Nat.le_trans (Nat.le_of_add_right_le (add_utf8ByteSize_le_joinPath path name)) (ih _)

/-- One name more does not change where a path starts. -/
theorem isAbsolutePath_joinPath {path : String} (h : path ≠ "") (name : String) :
    isAbsolutePath (joinPath path name) = isAbsolutePath path := by
  obtain ⟨c, t, hct⟩ := List.exists_cons_of_ne_nil (l := path.toList) (by simpa using h)
  unfold isAbsolutePath joinPath
  rw [if_neg h]
  split <;> simp [hct]

/-- A path with a name joined to it is not empty. -/
theorem joinPath_ne_empty {path : String} (h : path ≠ "") (name : String) :
    joinPath path name ≠ "" := by
  unfold joinPath
  rw [if_neg h]
  split <;> simp [h]

/-- A longer path starts where its start does. -/
theorem isAbsolutePath_foldl_joinPath {path : String} (h : path ≠ "") (names : List String) :
    isAbsolutePath (names.foldl joinPath path) = isAbsolutePath path := by
  induction names generalizing path with
  | nil => rfl
  | cons name names ih =>
    rw [List.foldl_cons, ih (joinPath_ne_empty h name), isAbsolutePath_joinPath h]

/-- Joining adds separators only. -/
theorem nul_not_mem_foldl_joinPath {path : String} {names : List String}
    (hp : '\x00' ∉ path.toList) (h : ∀ name ∈ names, '\x00' ∉ name.toList) :
    '\x00' ∉ (names.foldl joinPath path).toList := by
  induction names generalizing path with
  | nil => exact hp
  | cons name names ih =>
    refine ih ?_ fun n hn => h n (List.mem_cons_of_mem _ hn)
    have hname := h name (List.mem_cons_self ..)
    unfold joinPath
    split
    · exact hname
    · split <;> simp [hp, hname]

namespace FileSystem

/-- A text is a path unless it has a NUL, is too long or is empty. -/
theorem refusal?_eq_none_iff {path : String} : refusal? path = none
    ↔ '\x00' ∉ path.toList ∧ path.utf8ByteSize ≤ maxPath ∧ path ≠ "" := by
  unfold refusal?
  split
  · simp_all
  · split
    · rename_i hlong
      simp [Nat.not_le.2 hlong]
    · split <;> simp_all

/-- A longer path is a path, if it is not too long and no name has a NUL. -/
theorem refusal?_foldl_joinPath {path : String} {names : List String} (hp : refusal? path = none)
    (h : ∀ name ∈ names, '\x00' ∉ name.toList)
    (hsize : (names.foldl joinPath path).utf8ByteSize ≤ maxPath) :
    refusal? (names.foldl joinPath path) = none := by
  obtain ⟨hnul, -, hne⟩ := refusal?_eq_none_iff.1 hp
  -- The path is not empty, since its start is not.
  refine refusal?_eq_none_iff.2 ⟨nul_not_mem_foldl_joinPath hnul h, hsize, fun he => ?_⟩
  have hle := utf8ByteSize_le_foldl_joinPath path names
  rw [he] at hle
  simp [hne] at hle

end FileSystem

end PrimaryDex
