import PrimaryDex.Proofs.FileTree.Paths

namespace PrimaryDex

/-!
# Orderly file trees

In the trees that there are, the entries of a folder have distinct names, and names that can stand
in a path.

* `Node.isOrderly` — a tree in which this holds of each folder; `FileSystem.isOrderly`;
* `Node.meetsLink`, `Node.passes` — whether names come to a link, or pass through a folder of some kind;
* `Node.Shows` — names lead to a file through folders that let a listing pass. Those are the files that it
  comes by (`Node.mem_files_iff`).
-/

namespace Node

/-! ### Files and entries -/

/-- Each entry has the files below it, but for a folder that cannot be searched. -/
theorem filesOfEntries_eq (access : FolderAccess) (es : List (FileName × Node)) :
    filesOfEntries access es
      = es.map fun e => (e.1, if e.2.isFolder && access.toSearch.isSome then [] else e.2.files) := by
  induction es with
  | nil => rfl
  | cons e es ih => rw [filesOfEntries, ih, List.map_cons]

/-- Only a file is a file of itself. -/
theorem nil_mem_files {n : Node} : [] ∈ n.files ↔ ∃ access content, n = file access content := by
  cases n with
  | folder access es =>
    rw [files]
    split <;> simp
  | _ => simp [files]

/-- Below a folder, no name at all leads to a file only if the folder is none. -/
theorem isFolder_eq_false_of_nil_mem_files {n : Node} (h : [] ∈ n.files) : n.isFolder = false := by
  obtain ⟨access, content, rfl⟩ := nil_mem_files.1 h
  rfl

/-- The files below a folder are those below its entries, if the folder can be listed, and for the
    folders among the entries searched as well. -/
theorem cons_mem_files {n : Node} {name : FileName} {names : List FileName} :
    name :: names ∈ n.files ↔ n.access.toList = none ∧ (names ≠ [] → n.access.toSearch = none)
      ∧ ∃ child, (name, child) ∈ n.entries ∧ names ∈ child.files := by
  -- What is below a folder has a name, and what is no folder has nothing below it.
  have below {child : Node} (h : names ∈ child.files) : child.isFolder = true ↔ names ≠ [] := by
    cases names with
    | nil => simp [isFolder_eq_false_of_nil_mem_files h]
    | cons x xs => cases child <;> simp [files, isFolder] at h ⊢
  cases n with
  | folder access es =>
    simp only [files, entries, Node.access]
    cases htoList : access.toList with
    | some cause => simp
    | none =>
      simp only [Option.isSome_none, Bool.false_eq_true, if_false, List.mem_flatMap,
        List.mem_mergeSort, filesOfEntries_eq, List.mem_map, true_and]
      constructor
      · rintro ⟨_, ⟨⟨m, child⟩, he, rfl⟩, names', hb, hn⟩
        obtain ⟨rfl, rfl⟩ := List.cons.inj hn
        dsimp only at hb
        split at hb
        · simp at hb
        · rename_i hsearch
          refine ⟨fun hne => ?_, child, he, hb⟩
          simpa [(below hb).2 hne] using hsearch
      · rintro ⟨hsearch, child, he, hn⟩
        refine ⟨_, ⟨_, he, rfl⟩, names, ?_, rfl⟩
        dsimp only
        rw [if_neg]
        · exact hn
        · intro hfolder
          rw [Bool.and_eq_true, below hn] at hfolder
          simp [hsearch hfolder.1] at hfolder
  | _ => simp [files, entries]

/-! ### Names that lead somewhere -/

/-- A name leads on from a folder only. -/
theorem exists_of_at?_cons {n m : Node} {name : FileName} {names : List FileName}
    (h : n.at? (name :: names) = some m) :
    ∃ access es, n = folder access es
      ∧ ∃ child, es.lookup name = some child ∧ child.at? names = some m := by
  rw [at?] at h
  split at h
  · rename_i child hl
    cases n with
    | folder access es => exact ⟨access, es, rfl, child, hl, h⟩
    | _ => simp [entries] at hl
  · simp at h

/-- Whether names come to a link, on the way or at the end. -/
def meetsLink : Node → List FileName → Bool
  | link _, _ => true
  | _, [] => false
  | n, name :: names =>
    match n.entries.lookup name with
    | some child => child.meetsLink names
    | none => false

/-- Whether names pass through a folder that refuses something, on the way to their end. -/
def passes (refuses : FolderAccess → Option FileError) : Node → List FileName → Bool
  | _, [] => false
  | n, name :: names =>
    (refuses n.access).isSome || match n.entries.lookup name with
      | some child => child.passes refuses names
      | none => false

/-- Names that lead to something that is no link come to none on the way. -/
theorem meetsLink_of_at? {n m : Node} {names : List FileName} (h : n.at? names = some m)
    (hm : ∀ target, m ≠ link target) : n.meetsLink names = false := by
  induction names generalizing n with
  | nil =>
    rw [at?, Option.some.injEq] at h
    cases n with
    | link target => exact absurd h.symm (hm target)
    | _ => rfl
  | cons name names ih =>
    obtain ⟨access, es, rfl, child, hl, h⟩ := exists_of_at?_cons h
    simpa [meetsLink, entries, hl] using ih h

/-- A name leads on through a folder that refuses nothing. -/
theorem passes_cons_eq_false_iff {refuses : FolderAccess → Option FileError} {n child : Node}
    {name : FileName} {names : List FileName} (h : n.entries.lookup name = some child) :
    n.passes refuses (name :: names) = false
      ↔ refuses n.access = none ∧ child.passes refuses names = false := by
  simp [passes, h]

/-- Without their last name, names pass through no other folders. -/
theorem passes_dropLast {refuses : FolderAccess → Option FileError} {n : Node}
    {names : List FileName} (h : n.passes refuses names = false) :
    n.passes refuses names.dropLast = false := by
  induction names generalizing n with
  | nil => rfl
  | cons name names ih =>
    cases names with
    | nil => rfl
    | cons x xs =>
      rw [List.dropLast_cons_of_ne_nil (by simp)]
      simp only [passes, Bool.or_eq_false_iff] at h ⊢
      refine ⟨h.1, ?_⟩
      split
      · rename_i child hl
        exact ih (by simpa [passes, hl] using h.2)
      · rfl

/-! ### Orderly trees -/

mutual

/-- Whether in each folder of a tree the entries have distinct names that an entry can have. -/
def isOrderly : Node → Bool
  | folder _ es => (es.map (·.1)).Nodup && es.all (isEntryName ·.1) && areOrderly es
  | _ => true

/-- Whether the trees below some entries are orderly. -/
def areOrderly : List (FileName × Node) → Bool
  | [] => true
  | (_, n) :: es => n.isOrderly && areOrderly es

end

/-- Entries are orderly if the tree below each of them is. -/
theorem areOrderly_iff {es : List (FileName × Node)} :
    areOrderly es = true ↔ ∀ e ∈ es, e.2.isOrderly = true := by
  induction es with
  | nil => simp [areOrderly]
  | cons e es ih => simp [areOrderly, ih]

variable {n child m : Node} {name : FileName} {names : List FileName}

/-- A tree is orderly if its entries have distinct sound names and are orderly. -/
theorem isOrderly_iff : n.isOrderly = true ↔ (n.entries.map (·.1)).Nodup
    ∧ ∀ e ∈ n.entries, isEntryName e.1 = true ∧ e.2.isOrderly = true := by
  cases n with
  | folder _ es => simp [isOrderly, entries, areOrderly_iff, forall_and, and_assoc]
  | _ => simp [isOrderly, entries]

/-- In an orderly folder, a name leads to the entry that has it. -/
theorem lookup_eq_some_iff (h : n.isOrderly = true) :
    n.entries.lookup name = some child ↔ (name, child) ∈ n.entries := by
  have hnd := (isOrderly_iff.1 h).1
  generalize n.entries = es at hnd
  induction es with
  | nil => simp
  | cons e es ih =>
    obtain ⟨m, k⟩ := e
    rw [List.map_cons, List.nodup_cons] at hnd
    rw [List.lookup_cons, List.mem_cons]
    by_cases hm : name = m
    · subst hm
      have hnot : (name, child) ∉ es := fun he => hnd.1 (List.mem_map.2 ⟨_, he, rfl⟩)
      simp [hnot, eq_comm]
    · simp [hm, ih hnd.2, beq_eq_false_iff_ne.2 hm]

/-- What stands in an orderly tree is an orderly tree, and the names that lead there can be those of
    entries. -/
theorem isOrderly_of_at? (h : n.isOrderly = true) (hn : n.at? names = some m) :
    m.isOrderly = true ∧ ∀ name ∈ names, isEntryName name = true := by
  induction names generalizing n with
  | nil =>
    rw [at?, Option.some.injEq] at hn
    exact ⟨hn ▸ h, by simp⟩
  | cons name names ih =>
    rw [at?] at hn
    split at hn
    · rename_i child hl
      obtain ⟨hname, hchild⟩ := (isOrderly_iff.1 h).2 _ ((lookup_eq_some_iff h).1 hl)
      obtain ⟨hm, hnames⟩ := ih hchild hn
      exact ⟨hm, by simpa [hname] using hnames⟩
    · simp at hn

/-- Names lead to a file, through folders that can be listed and, all but the last, searched. -/
structure Shows (n : Node) (names : List FileName) : Prop where
  listed : n.passes (·.toList) names = false
  searched : n.passes (·.toSearch) names.dropLast = false
  isFile : ∃ access content, n.at? names = some (file access content)

/-- The three conditions one by one. -/
theorem shows_iff : n.Shows names
    ↔ n.passes (·.toList) names = false ∧ n.passes (·.toSearch) names.dropLast = false
      ∧ ∃ access content, n.at? names = some (file access content) :=
  ⟨fun h => ⟨h.listed, h.searched, h.isFile⟩, fun h => ⟨h.1, h.2.1, h.2.2⟩⟩

/-- The files of an orderly tree that a listing comes by are those that it shows. -/
theorem mem_files_iff (h : n.isOrderly = true) : names ∈ n.files ↔ n.Shows names := by
  rw [shows_iff]
  -- By induction on the names: a listing goes down as a look-up does.
  induction names generalizing n with
  | nil => simp [nil_mem_files, at?, passes]
  | cons name names ih =>
    rw [cons_mem_files, at?]
    cases hl : n.entries.lookup name with
    | none =>
      have hnot : ∀ child, (name, child) ∉ n.entries := fun child he => by
        simp [(lookup_eq_some_iff h).2 he] at hl
      simp [hnot]
    | some child =>
      have he := (lookup_eq_some_iff h).1 hl
      have hsearch : n.passes (·.toSearch) (name :: names).dropLast = false
          ↔ (names ≠ [] → n.access.toSearch = none)
            ∧ child.passes (·.toSearch) names.dropLast = false := by
        cases names with
        | nil => simp [passes]
        | cons x xs =>
          rw [List.dropLast_cons_of_ne_nil (by simp), passes_cons_eq_false_iff hl]
          simp
      -- No other entry has the name.
      have hchild : (∃ child', (name, child') ∈ n.entries ∧ names ∈ child'.files)
          ↔ names ∈ child.files := by
        constructor
        · rintro ⟨child', he', hn⟩
          obtain rfl := Option.some.inj (((lookup_eq_some_iff h).2 he').symm.trans hl)
          exact hn
        · exact fun hn => ⟨child, he, hn⟩
      rw [hchild, ih ((isOrderly_iff.1 h).2 _ he).2, passes_cons_eq_false_iff hl, hsearch]
      simp only [and_assoc, and_left_comm]

end Node

namespace FileSystem

/-- Whether all folders are orderly. -/
def isOrderly (fs : FileSystem) : Bool := fs.root.isOrderly

/-- What a path leads to is orderly. -/
theorem isOrderly_of_stat {fs : FileSystem} {path : String} {n : Node} (h : fs.isOrderly = true)
    (hs : fs.stat path = .ok n) : n.isOrderly = true := by
  obtain ⟨names, hnames⟩ := at?_of_stat hs
  exact (Node.isOrderly_of_at? h hnames).1

end FileSystem

end PrimaryDex
