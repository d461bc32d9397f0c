import PrimaryDex.FileTree.FileError
import PrimaryDex.FileTree.FileName

namespace PrimaryDex

/-!
# File trees

* `FileAccess`, `FolderAccess` — what the system refuses to a program that uses a file or a folder;
* `Node` — a file, a folder with its entries in any order, a symbolic link, or a device;
* `Node.at?` — what stands at a list of names below a node, links not followed;
* `Node.put`, `Node.remove` — a changed tree;
* `Node.files` — the files below a node that a listing comes by, sorted by the bytes of the names;
* `Node.contents` — what the files of a tree hold; `at?_file_mem_contents` says that nothing is left
  out.
-/

/-- What the system refuses to a program that uses a file, and how. -/
structure FileAccess where
  /-- Why the file cannot be opened to be read. -/
  toRead : Option FileError := none
  /-- Why reading it breaks off, behind the bytes that can be read. -/
  midway : Option FileError := none
  /-- Why the file cannot be opened to be written. -/
  toWrite : Option FileError := none
  deriving DecidableEq, Inhabited

/-- Why the bytes of a file cannot all be read. -/
def FileAccess.refusal? (access : FileAccess) : Option FileError := access.toRead <|> access.midway

/-- What the system refuses to a program that uses a folder, and how. -/
structure FolderAccess where
  /-- Why the names of its entries cannot be listed. -/
  toList : Option FileError := none
  /-- Why no name can be looked up in it. -/
  toSearch : Option FileError := none
  /-- Why no entry can be added to it. -/
  toChange : Option FileError := none
  deriving DecidableEq, Inhabited

/-- A path in names, from the root or from where it stands. -/
structure Route where
  absolute : Bool
  names : List FileName
  deriving DecidableEq, Inhabited

/-- Something that is neither file nor folder nor link. It does not give out what it has taken. -/
structure Device where
  /-- What reading it to its end comes to. -/
  reading : Except FileError ByteArray := .ok .empty
  /-- Why it takes nothing. -/
  toWrite : Option FileError := none
  /-- All that was written to it. -/
  taken : ByteArray := .empty
  deriving Inhabited

/-- A node of a file tree. -/
inductive Node where
  | file (access : FileAccess) (content : ByteArray)
  | folder (access : FolderAccess) (entries : List (FileName × Node))
  | link (target : Route)
  | device (device : Device)
  deriving Inhabited

namespace Node

/-- A file that can be read and written. -/
def ofContent (content : ByteArray) : Node := file {} content

/-- A folder that can be used in every way, whose entries have the names of some texts. -/
def ofEntries (entries : List (String × Node)) : Node :=
  folder {} (entries.map fun e => (FileName.ofText e.1, e.2))

/-! ### Access -/

/-- The entries of a folder; any other node has none. -/
def entries : Node → List (FileName × Node)
  | folder _ es => es
  | _ => []

/-- What is refused to those who use a folder; any other node is no folder to refuse anything. -/
def access : Node → FolderAccess
  | folder access _ => access
  | _ => {}

/-- Whether a node is a folder. -/
def isFolder : Node → Bool
  | folder _ _ => true
  | _ => false

/-- The node at a list of names. -/
def at? : Node → List FileName → Option Node
  | n, [] => some n
  | n, name :: names =>
    match n.entries.lookup name with
    | some child => child.at? names
    | none => none

/-- Names behind others lead on from where these lead. -/
theorem at?_append (n : Node) (xs ys : List FileName) :
    n.at? (xs ++ ys) = (n.at? xs).bind (·.at? ys) := by
  induction xs generalizing n with
  | nil => rfl
  | cons x xs ih =>
    simp only [List.cons_append, at?]
    split
    · exact ih _
    · rfl

/-- Sets an entry, in place if there is one of that name. -/
def setEntry (name : FileName) (node : Node) : List (FileName × Node) → List (FileName × Node)
  | [] => [(name, node)]
  | e :: es => if e.1 = name then (name, node) :: es else e :: setEntry name node es

/-- The tree with `node` at a list of names. Folders on the way are added. -/
def put (node : Node) : List FileName → Node → Node
  | [], _ => node
  | name :: names, n =>
    folder n.access
      (setEntry name (put node names ((n.entries.lookup name).getD (folder {} []))) n.entries)

/-- The tree without what stands at a list of names. -/
def remove : List FileName → Node → Node
  | [], n => n
  | [name], n => folder n.access (n.entries.filter (·.1 ≠ name))
  | name :: names, n =>
    match n.entries.lookup name with
    | some child => folder n.access (setEntry name (remove names child) n.entries)
    | none => n

/-! ### Listing -/

mutual

/-- The names that lead to the files of a tree: in each folder the entries in order of their names,
    and an entry's own files before the next entry. Links are not followed. What cannot be listed or
    searched is passed over, but the names of files are known without a search. -/
def files : Node → List (List FileName)
  | file _ _ => [[]]
  | folder access es =>
    if access.toList.isSome then []
    else ((filesOfEntries access es).mergeSort fun a b => FileName.le a.1 b.1).flatMap
      fun (name, below) => below.map (name :: ·)
  | _ => []

/-- The files below each entry of a folder. -/
def filesOfEntries (access : FolderAccess) :
    List (FileName × Node) → List (FileName × List (List FileName))
  | [] => []
  | (name, n) :: es =>
    (name, if n.isFolder && access.toSearch.isSome then [] else n.files) :: filesOfEntries access es

end

/-! ### Contents -/

mutual

/-- What the files of a tree hold. -/
def contents : Node → List ByteArray
  | file _ content => [content]
  | folder _ es => contentsOfEntries es
  | _ => []

/-- What the files below some entries hold. -/
def contentsOfEntries : List (FileName × Node) → List ByteArray
  | [] => []
  | (_, n) :: es => n.contents ++ contentsOfEntries es

end

/-- What the files below an entry hold is held below the folder. -/
theorem contents_lookup {es : List (FileName × Node)} {name : FileName} {n : Node}
    (h : es.lookup name = some n) {c : ByteArray} (hc : c ∈ n.contents) :
    c ∈ contentsOfEntries es := by
  induction es with
  | nil => simp at h
  | cons e es ih =>
    obtain ⟨m, k⟩ := e
    rw [contentsOfEntries, List.mem_append]
    rw [List.lookup_cons] at h
    split at h
    · rw [Option.some.injEq] at h
      exact .inl (h ▸ hc)
    · exact .inr (ih h)

/-- What a file of the tree holds is among its contents. -/
theorem at?_file_mem_contents {n : Node} {names : List FileName} {access : FileAccess} {c : ByteArray}
    (h : n.at? names = some (file access c)) : c ∈ n.contents := by
  induction names generalizing n with
  | nil =>
    rw [at?, Option.some.injEq] at h
    rw [h, contents]
    exact List.mem_singleton_self c
  | cons name names ih =>
    simp only [at?] at h
    split at h
    · rename_i child hl
      cases n with
      | folder _ es => exact contents_lookup hl (ih h)
      | _ => simp [entries] at hl
    · simp at h

end Node

end PrimaryDex
