import PrimaryDex.FileTree.Node
import PrimaryDex.Text.Cut
import PrimaryDex.Text.Utf8

namespace PrimaryDex

/-!
# Looking up paths

A path is followed name by name from the root or the working folder. `.` stays, `..` goes up, a link
is replaced by its target, and every name but the last must lead to a folder. A folder must let a
program look up any name that is not empty.

* `FileSystem.locate` — where a path leads, which may be a vacant place in a folder;
* `FileSystem.stat`, `read`, `readText` — the node at a path, and what can be read from it;
  `stat_eq_ok_iff` says what a path must be for that and where its names must lead;
* `FileSystem.written?` — what was written to it, which a device does not give out again;
* `FileSystem.fileAt?` — the file at a path; `mem_contents_of_fileAt?` says that what it holds is
  held by a file of the tree.
-/

/-- The names of a path. A separator at its start or end gives an empty name. -/
def pathNames (path : String) : List String :=
  (Text.pieces '/' path.toList).map String.ofList

/-- Whether a path starts at the root. -/
def isAbsolutePath (path : String) : Bool :=
  path.toList.head? = some '/'

/-- The names of a path, as the system takes them. -/
def pathSteps (path : String) : List FileName := (pathNames path).map FileName.ofText

/-- What a path says of the way that it goes. -/
def Route.ofPath (path : String) : Route := ⟨isAbsolutePath path, pathSteps path⟩

/-- Whether a name in a path stays in the folder that it is looked up in. -/
def isIdleName (name : String) : Bool := name = "" || name = "."

/-- The path of `name` below `path`. -/
def joinPath (path name : String) : String :=
  if path = "" then name
  else if path.toList.getLast? = some '/' then path ++ name else path ++ "/" ++ name

/-- How much of a text a disk takes before writing breaks off, and why it does. -/
structure WriteLimit where
  room : Nat
  cause : FileError
  deriving DecidableEq

/-- A tree of files, the names that lead to the working folder, and what limits writing. -/
structure FileSystem where
  root : Node
  working : List FileName
  limit : Option WriteLimit := none
  deriving Inhabited

namespace FileSystem

/-- Where a path leads. -/
inductive Place where
  | taken (names : List FileName) (node : Node)
  /-- The folder is there, but has no entry of that name. -/
  | vacant (folder : List FileName) (name : FileName)

/-- What a path is followed for. -/
inductive Purpose where
  /-- For the entry itself: a link at the very end is not followed. -/
  | entry
  /-- For what is there: a link at the very end is followed. -/
  | target
  /-- For a file to write: as for `target`, but a last name before a separator is refused as a
      folder's, whether it is there or not. -/
  | newFile
  deriving DecidableEq

/-- The greatest length of one name in bytes. -/
def maxName : Nat := 255

/-- The greatest length of a path in bytes. -/
def maxPath : Nat := 4095

/-- How many links may be followed on one path. -/
def maxLinks : Nat := 40

/-- Follows names from the folder at `here`, with `links` more links allowed. -/
def walk (root : Node) (purpose : Purpose) (links : Nat) (here : List FileName)
    (names : List FileName) : Except FileError Place :=
  match names with
  | [] =>
    match root.at? here with
    | some n => .ok (.taken here n)
    | none => .error .notFound
  | name :: rest =>
    match root.at? here with
    | some (.folder access es) =>
      if name = "" then walk root purpose links here rest
      else match access.toSearch with
        | some cause => .error cause
        | none =>
          if name = "." then walk root purpose links here rest
          else if name = ".." then walk root purpose links here.dropLast rest
          else if purpose = .newFile ∧ rest ≠ [] ∧ rest.all (· = "") then .error .isFolder
          else if maxName < name.size then .error .nameTooLong
          else match es.lookup name with
            | none => if rest.isEmpty then .ok (.vacant here name) else .error .notFound
            | some (.link target) =>
              if rest.isEmpty ∧ purpose = .entry then .ok (.taken (here ++ [name]) (.link target))
              else match links with
                | 0 => .error .tooManyLinks
                | links + 1 =>
                  walk root purpose links (if target.absolute then [] else here)
                    (target.names ++ rest)
            | some _ => walk root purpose links (here ++ [name]) rest
    | some _ => .error .notFolder
    | none => .error .notFound
termination_by (links, names.length)

/-- Why a text can not be a path at all. -/
def refusal? (path : String) : Option FileError :=
  if '\x00' ∈ path.toList then some .nulInPath
  else if maxPath < path.utf8ByteSize then some .nameTooLong
  else if path = "" then some .notFound
  else none

/-- Where some names lead from the root or from the working folder. -/
def locateNames (fs : FileSystem) (purpose : Purpose) (absolute : Bool)
    (names : List FileName) : Except FileError Place :=
  walk fs.root purpose maxLinks (if absolute then [] else fs.working) names

/-- Where a path leads. -/
def locate (fs : FileSystem) (purpose : Purpose) (path : String) : Except FileError Place :=
  match refusal? path with
  | some e => .error e
  | none => fs.locateNames purpose (isAbsolutePath path) (pathSteps path)

/-- The node at a path, links followed. -/
def stat (fs : FileSystem) (path : String) : Except FileError Node := do
  match ← fs.locate .target path with
  | .taken _ n => return n
  | .vacant _ _ => throw .notFound

/-- Whether a path leads to a folder. -/
def isFolder (fs : FileSystem) (path : String) : Bool :=
  match fs.stat path with
  | .ok n => n.isFolder
  | _ => false

/-- What the file at a path refuses and what it holds, if the path leads to a file. -/
def fileAt? (fs : FileSystem) (path : String) : Option (FileAccess × ByteArray) :=
  match fs.stat path with
  | .ok (.file access content) => some (access, content)
  | _ => none

/-- Reads what is at a path. -/
def read (fs : FileSystem) (path : String) : Except FileError ByteArray := do
  match ← fs.stat path with
  | .file access content =>
    match access.refusal? with
    | some cause => throw cause
    | none => return content
  | .folder access _ => throw (access.toList.getD .isFolder)
  | .device d => d.reading
  | .link _ => return ByteArray.empty

/-- What was written to a path: all that a file there holds, or that a device there has taken. -/
def written? (fs : FileSystem) (path : String) : Option ByteArray :=
  match fs.stat path with
  | .ok (.file _ content) => some content
  | .ok (.device d) => some d.taken
  | _ => none

/-- Reads a text. -/
def readText (fs : FileSystem) (path : String) : Except FileError String := do
  match Text.Utf8.decode? (← fs.read path).data.toList with
  | some t => return String.ofList t
  | none => throw .notUtf8

/-! ### What a path can lead to -/

/-- A taken place holds what the tree has there. -/
theorem at?_of_walk {root : Node} {purpose : Purpose} {links : Nat}
    {here names found : List FileName} {n : Node}
    (h : walk root purpose links here names = .ok (.taken found n)) : root.at? found = some n := by
  fun_induction walk root purpose links here names <;> simp_all
  case case11 =>
    -- A link that is not followed stands in the folder where it was looked up.
    rename_i hf _ _ _ _ _ _ hl _
    rw [← h.1, Node.at?_append, hf]
    simp [Node.at?, Node.entries, hl]

/-- A path is followed if it can be one, name by name. -/
theorem locate_eq_ok_iff {fs : FileSystem} {purpose : Purpose} {path : String} {place : Place} :
    fs.locate purpose path = .ok place ↔ refusal? path = none
      ∧ fs.locateNames purpose (isAbsolutePath path) (pathSteps path) = .ok place := by
  unfold locate
  cases refusal? path <;> simp

/-- What is at a path is what its names lead to. -/
theorem stat_eq_ok_iff {fs : FileSystem} {path : String} {n : Node} : fs.stat path = .ok n
    ↔ refusal? path = none ∧ ∃ found,
      fs.locateNames .target (isAbsolutePath path) (pathSteps path) = .ok (.taken found n) := by
  have htaken : fs.stat path = .ok n ↔ ∃ found, fs.locate .target path = .ok (.taken found n) := by
    rw [stat]
    cases fs.locate .target path with
    | error e => simp [bind, Except.bind]
    | ok place =>
      cases place <;>
        simp [bind, Except.bind, pure, Except.pure, throw, throwThe, MonadExceptOf.throw]
  simp only [htaken, locate_eq_ok_iff, exists_and_left]

/-- What a path leads to stands in the tree. -/
theorem at?_of_stat {fs : FileSystem} {path : String} {n : Node} (h : fs.stat path = .ok n) :
    ∃ names, fs.root.at? names = some n := by
  obtain ⟨-, found, hfound⟩ := stat_eq_ok_iff.1 h
  exact ⟨found, at?_of_walk hfound⟩

/-- What the file at a path holds is among the contents of the tree. -/
theorem mem_contents_of_fileAt? {fs : FileSystem} {path : String} {access : FileAccess}
    {c : ByteArray} (h : fs.fileAt? path = some (access, c)) : c ∈ fs.root.contents := by
  simp only [fileAt?] at h
  split at h
  · rename_i access content hs
    obtain ⟨names, hn⟩ := at?_of_stat hs
    rw [Option.some.injEq, Prod.mk.injEq] at h
    exact h.2 ▸ Node.at?_file_mem_contents hn
  · simp at h

end FileSystem

end PrimaryDex
