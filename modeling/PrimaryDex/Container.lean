import PrimaryDex.Fault
import PrimaryDex.FileTree.Lookup
import PrimaryDex.Zip.Archive

namespace PrimaryDex

/-!
# Containers

A container is a folder or an archive that holds files under relative paths. A folder is read anew at
each access, an archive holds the bytes that it had when it was opened.

* `Container.ofLocation` — opens the container at a location;
* `Container.open` — what reading an entry gives. A fault to open is kept apart from one to read;
* `Container.files` — the paths of all files;
* `Container.contents` — all that can be read from a container besides the file tree;
  `mem_contents_of_open` says so.
-/

/-- A container and where it was found. -/
inductive Container where
  | folder (location : String) (closed : Bool)
  /-- No archive is left once it is closed. -/
  | archive (location : String) (opened : Option Zip.Archive)

namespace Container

/-- Opens the container at a location. -/
def ofLocation (fs : FileSystem) (location : String) : Except Fault Container :=
  match fs.stat location with
  | .error .notFound => .error (.locationNotFound location)
  | .error cause => .error (.invalidLocation location (.file cause))
  | .ok (.folder _ _) => .ok (.folder location false)
  | .ok (.file access content) =>
    match access.refusal? with
    | some cause => .error (.invalidLocation location (.file cause))
    | none =>
      match Zip.Archive.ofBytes content with
      | .ok a => .ok (.archive location (some a))
      | .error cause => .error (.invalidLocation location (.archive cause))
  | .ok _ => .error (.invalidLocation location .notRegular)

/-- Where the container was found. -/
def location : Container → String
  | folder location _ => location
  | archive location _ => location

/-- Whether the container gives nothing any more. -/
def isClosed : Container → Bool
  | folder _ closed => closed
  | archive _ opened => opened.isNone

/-- The container, closed. -/
def close : Container → Container
  | folder location _ => folder location true
  | archive location _ => archive location none

/-- What reading an open entry to its end gives. -/
abbrev Stream := Except StreamError ByteArray

/-- The path of an entry of a folder. Empty names in the entry's path do not count. -/
def entryPath (location path : String) : String :=
  ((pathNames path).filter (· ≠ "")).foldl joinPath location

/-- Opens the entry of an archive, of several with the same path the last one. -/
def openEntry (a : Zip.Archive) (location path : String) : Except Fault Stream :=
  match a.find? path with
  | none => .error (.entryNotFound path location)
  | some e =>
    match e.dataStart a.bytes with
    | .error cause => .error (.ofArchive location cause)
    | .ok start =>
      if e.isFolder then .error (.entryNotFound path location)
      else .ok ((e.readAt a.bytes start).mapError .data)

/-- Opens a file that is there. -/
def openFile (access : FileAccess) (content : ByteArray) : Except Fault Stream :=
  match access.toRead with
  | some cause => .error (.io cause)
  | none =>
    match access.midway with
    | some cause => .ok (.error (.file cause))
    | none => .ok (.ok content)

/-- Opens the entry at a path. In a folder it must be a file, links followed. A path that cannot be
    followed, for whatever reason, leads to none. -/
def «open» (fs : FileSystem) (c : Container) (path : String) : Except Fault Stream :=
  match c with
  | folder location true => .error (.closed location)
  | folder location false =>
    match fs.fileAt? (entryPath location path) with
    | some (access, content) => openFile access content
    | none => .error (.entryNotFound path location)
  | archive location none => .error (.closed location)
  | archive location (some a) => openEntry a location path

/-- Whether a location is `-`, which stands for standard input and has no files, however it ends. -/
def isStandardInput (location : String) : Bool :=
  match pathNames location with
  | name :: rest => name == "-" && rest.all isIdleName
  | [] => false

/-- How many bytes the path has to which some names lead from a location. -/
def pathSize (location : String) (names : List FileName) : Nat :=
  let start := location.utf8ByteSize - if location.toList.getLast? = some '/' then 1 else 0
  names.foldl (fun size name => size + 1 + name.size) start

/-- Whether the folder that has a file at some names below a location can be opened. A longer path than
    the greatest leads nowhere, and a path is longer than those of the folders above it. -/
def isInReach (location : String) (names : List FileName) : Bool :=
  pathSize location names.dropLast ≤ FileSystem.maxPath

/-- The path that some names are shown as. -/
def pathText (names : List FileName) : String := "/".intercalate (names.map FileName.text)

/-- The names of the files of a folder, or of what has taken its place. -/
def folderWays (fs : FileSystem) (location : String) : List (List FileName) :=
  if isStandardInput location then []
  else match fs.stat location with
    | .ok n => n.files.filter (isInReach location)
    | .error _ => []

/-- The paths that the names of the files of a folder are shown as. -/
def folderFiles (fs : FileSystem) (location : String) : List String :=
  (folderWays fs location).map pathText

/-- The paths of all files. A closed container has none. -/
def files (fs : FileSystem) : Container → Except Fault (List String)
  | folder _ true => .ok []
  | folder location false => .ok (folderFiles fs location)
  | archive _ none => .ok []
  | archive location (some a) => a.fileNames.mapError (.ofArchive location)

/-! ### What a container can give -/

/-- What the entries of an archive hold. A folder's files are part of the file tree. -/
def contents : Container → List ByteArray
  | archive _ (some a) => a.entries.filterMap a.contents?
  | _ => []

/-- What is read from an archive is held by one of its entries. -/
theorem mem_contents_of_openEntry {a : Zip.Archive} {location path : String} {content : ByteArray}
    (h : openEntry a location path = .ok (.ok content)) :
    content ∈ a.entries.filterMap a.contents? := by
  simp only [openEntry] at h
  split at h
  · simp at h
  · rename_i e he
    split at h
    · simp at h
    · rename_i start hs
      split at h
      · simp at h
      · -- Only the last branch gives content out.
        have hread : e.readAt a.bytes start = .ok content := by
          cases hr : e.readAt a.bytes start with
          | ok c =>
            rw [hr] at h
            exact congrArg Except.ok (Except.ok.inj (Except.ok.inj h))
          | error cause =>
            rw [hr] at h
            exact nomatch Except.ok.inj h
        refine List.mem_filterMap.2 ⟨e, ?_, ?_⟩
        · exact List.mem_reverse.1 (List.mem_of_find?_eq_some he)
        · simp [Zip.Archive.contents?, hs, hread, Except.toOption]

/-- What is read from a file is all that it holds. -/
theorem openFile_eq_ok_iff {access : FileAccess} {held content : ByteArray} :
    openFile access held = .ok (.ok content) ↔ access.refusal? = none ∧ held = content := by
  unfold openFile FileAccess.refusal?
  cases access.toRead <;> cases access.midway <;> simp

/-- What is read from a container is held by the file tree or by the container. -/
theorem mem_contents_of_open {fs : FileSystem} {c : Container} {path : String} {content : ByteArray}
    (h : c.open fs path = .ok (.ok content)) : content ∈ fs.root.contents ++ c.contents := by
  unfold «open» at h
  split at h
  · simp at h
  · split at h
    · rename_i access held hf
      obtain ⟨-, rfl⟩ := openFile_eq_ok_iff.1 h
      exact List.mem_append_left _ (FileSystem.mem_contents_of_fileAt? hf)
    · simp at h
  · simp at h
  · exact List.mem_append_right _ (mem_contents_of_openEntry h)

end Container

end PrimaryDex
