import PrimaryDex.FileTree.Lookup

namespace PrimaryDex

/-!
# Changing files

A change has an outcome and leaves a tree behind in either case.

* `FileSystem.makeFolder`, `makeFolders` — a new folder, and one with all that are missing above it;
* `FileSystem.writeFile` — a new or replaced file. What it held is dropped first, and writing may
  break off;
* `FileSystem.makeParent` — the folder in which a path has its last name, with all above it.
-/

/-- What a change leaves behind, and whether it went through. -/
structure Change where
  after : FileSystem
  result : Except FileError Unit

namespace FileSystem

/-- The file system with `node` at some names from the root. -/
def put (fs : FileSystem) (names : List FileName) (node : Node) : FileSystem :=
  { fs with root := Node.put node names fs.root }

/-- The file system without what stands at some names from the root. -/
def remove (fs : FileSystem) (names : List FileName) : FileSystem :=
  { fs with root := Node.remove names fs.root }

/-- Nothing changed, because of `e`. -/
def refuse (fs : FileSystem) (e : FileError) : Change := ⟨fs, .error e⟩

/-- Why no entry can be added to the folder at some names from the root. -/
def additionRefusal? (fs : FileSystem) (folder : List FileName) : Option FileError :=
  (fs.root.at? folder).bind (·.access.toChange)

/-- Makes a folder in a folder that is there. -/
def makeFolder (fs : FileSystem) (absolute : Bool) (names : List FileName) : Change :=
  match fs.locateNames .entry absolute names with
  | .ok (.vacant folder name) =>
    match fs.additionRefusal? folder with
    | some e => fs.refuse e
    | none => ⟨fs.put (folder ++ [name]) (.folder {} []), .ok ()⟩
  | .ok (.taken _ _) => fs.refuse .alreadyExists
  | .error e => fs.refuse e

/-- Whether some names lead to a folder. -/
def isFolderAt (fs : FileSystem) (absolute : Bool) (names : List FileName) : Bool :=
  match fs.locateNames .target absolute names with
  | .ok (.taken _ n) => n.isFolder
  | _ => false

/-- Makes a folder, or is content with one that is there. -/
def ensureFolder (fs : FileSystem) (absolute : Bool) (names : List FileName) : Change :=
  match fs.makeFolder absolute names with
  | ⟨after, .ok ()⟩ => ⟨after, .ok ()⟩
  | ⟨_, .error e⟩ => if fs.isFolderAt absolute names then ⟨fs, .ok ()⟩ else fs.refuse e

/-- Makes a folder and before it all folders above it that are missing. -/
def makeFolders (fs : FileSystem) (absolute : Bool) (names : List FileName) : Change :=
  if h : names = [] then ⟨fs, .ok ()⟩
  else match fs.ensureFolder absolute names with
    | ⟨_, .error .notFound⟩ =>
      have : 0 < names.length := List.length_pos_iff.2 h
      match fs.makeFolders absolute names.dropLast with
      | ⟨after, .ok ()⟩ => after.ensureFolder absolute names
      | ⟨after, .error e⟩ => ⟨after, .error e⟩
    | change => change
termination_by names.length
decreasing_by simp only [List.length_dropLast]; omega

/-- The start of a path that leads to the folder in which the path has its last name. Idle names at
    the end of either do not count. -/
def parentPath (path : String) : String :=
  let fromLast := (pathNames path).reverse.dropWhile isIdleName
  "/".intercalate ((fromLast.drop 1).dropWhile isIdleName).reverse

/-- Makes the folder of a path, with all above it. Idle names make its path longer, but no folder. -/
def makeParent (fs : FileSystem) (path : String) : Change :=
  let parent := parentPath path
  match (pathNames parent).filter (!isIdleName ·) with
  | [] => ⟨fs, .ok ()⟩
  | names =>
    match refusal? parent with
    | some e => fs.refuse e
    | none => fs.makeFolders (isAbsolutePath parent) (names.map FileName.ofText)

/-- The part of some bytes that is written, and whether writing breaks off behind it. -/
def accept (fs : FileSystem) (content : ByteArray) : ByteArray × Except FileError Unit :=
  match fs.limit with
  | none => (content, .ok ())
  | some limit =>
    if content.size ≤ limit.room then (content, .ok ())
    else (content.extract 0 limit.room, .error limit.cause)

/-- Writes to a place, where `node` stands then with what was written. -/
def writeAt (fs : FileSystem) (place : List FileName) (node : ByteArray → Node)
    (content : ByteArray) : Change :=
  ⟨fs.put place (node (fs.accept content).1), (fs.accept content).2⟩

/-- Writes a file that is there or not. A device is written to as well. -/
def writeFile (fs : FileSystem) (path : String) (content : ByteArray) : Change :=
  match fs.locate .newFile path with
  | .ok (.vacant folder name) =>
    match fs.additionRefusal? folder with
    | some e => fs.refuse e
    | none => fs.writeAt (folder ++ [name]) (.file {}) content
  | .ok (.taken place (.file access _)) =>
    match access.toWrite with
    | some e => fs.refuse e
    | none => fs.writeAt place (.file access) content
  | .ok (.taken place (.device d)) =>
    match d.toWrite with
    | some e => fs.refuse e
    | none => fs.writeAt place (fun written => .device { d with taken := d.taken ++ written }) content
  | .ok (.taken _ (.folder _ _)) => fs.refuse .isFolder
  | .ok (.taken _ (.link _)) => fs.refuse .tooManyLinks
  | .error e => fs.refuse e

end FileSystem

end PrimaryDex
