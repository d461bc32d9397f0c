import PrimaryDex.FileTree.Change

namespace PrimaryDex.Disk

/-!
# Reading the disk

A run works on a file tree that is read before it starts. Only what the run can ask for is read.

* `Disk.readWhole` — adds all that a path leads to, folders with everything below them and links with
  their targets;
* `Disk.readAround` — adds the folders on a path and what stands at its end, without what is below.
-/

/-- What the system answers, without the path that it is about. -/
def causeOf : IO.Error → FileError
  | .noFileOrDirectory _ _ _ => .notFound
  | .alreadyExists _ code details | .permissionDenied _ code details
  | .resourceExhausted _ code details | .inappropriateType _ code details
  | .invalidArgument _ code details | .noSuchThing _ code details
  | .resourceBusy code details | .resourceVanished code details | .hardwareFault code details
  | .otherError code details => .system details.capitalize code.toInt32.toInt.natAbs
  | fault => .system fault.toString 5

/-- The names of a folder from the root, as a path. -/
def folderPath (folder : List FileName) : String := "/" ++ "/".intercalate (folder.map FileName.text)

/-- The entry with a name in the folder at some names from the root. -/
def entry (folder : List FileName) (name : FileName) : IO.FS.DirEntry :=
  ⟨folderPath folder, name.text⟩

/-- The names of an absolute path that has no empty ones. -/
def namesOf (path : String) : List FileName := (pathSteps path).filter (· ≠ "")

/-- A link to where it ends. One that ends nowhere leads to a name that nothing can have. -/
def readLink (e : IO.FS.DirEntry) : IO Node := do
  try return .link (.ofPath (← IO.FS.realPath e.path).toString)
  catch _ => return .link ⟨true, ["\x00"]⟩

/-- A folder with its entries. Of entries that cannot be looked up only the names are known. -/
def readEntries (read : IO.FS.DirEntry → IO Node) (es : List IO.FS.DirEntry) : IO Node := do
  try return .ofEntries (← es.mapM fun e => do return (e.fileName, ← read e))
  catch fault =>
    return .folder { toSearch := some (causeOf fault) }
      (es.map fun e => (FileName.ofText e.fileName, .device {}))

/-- Reads a node and what is below it, down to a depth. What cannot be read is there and says why. -/
def readNode : Nat → IO.FS.DirEntry → IO Node
  | 0, _ => return .device {}
  | depth + 1, e => do
    match (← e.path.symlinkMetadata).type with
    | .file =>
      try return .ofContent (← IO.FS.readBinFile e.path)
      catch fault => return .file { toRead := some (causeOf fault) } .empty
    | .symlink => readLink e
    | .dir =>
      try readEntries (readNode depth) (← e.path.readDir).toList
      catch fault => return .folder { toList := some (causeOf fault) } []
    | .other => return .device {}

/-- No path is deeper than it has bytes. -/
def maxDepth : Nat := FileSystem.maxPath

/-- Reads a node with all that is below it, if it is there. -/
def readNode? (e : IO.FS.DirEntry) : IO (Option Node) := do
  try return some (← readNode maxDepth e)
  catch _ => return none

/-- Adds what stands at a place, to which no link leads. A folder is added without what is below it,
    and one that has been read is kept. -/
def readPlace (fs : FileSystem) (place : List FileName) : IO FileSystem := do
  match place.getLast? with
  | none => return fs
  | some name =>
    let e := entry place.dropLast name
    match (← e.path.symlinkMetadata).type, fs.root.at? place with
    | .dir, some _ => return fs
    | .dir, none => return fs.put place (.folder {} [])
    | _, _ => return fs.put place (← readNode 1 e)

/-- Adds what stands under a name in a folder, and gives the place to go on from. -/
def readStep (fs : FileSystem) (folder : List FileName) (name : FileName) :
    IO (FileSystem × Option (List FileName)) := do
  if name = "" || name = "." then return (fs, some folder)
  if name = ".." then return (fs, some folder.dropLast)
  let place := folder ++ [name]
  let e := entry folder name
  let mut fs := fs
  try
    match (← e.path.symlinkMetadata).type with
    | .symlink =>
      let link ← readLink e
      fs := fs.put place link
      let .link target := link | return (fs, none)
      let names : List FileName := target.names.filter (· ≠ "")
      return (← readPlace fs names, some names)
    | _ => return (← readPlace fs place, some place)
  catch _ => return (fs, none)

/-- Adds what stands on a path, and gives the place where it ends. -/
def readAlong (fs : FileSystem) (folder : List FileName) :
    List FileName → IO (FileSystem × Option (List FileName))
  | [] => return (fs, some folder)
  | name :: names => do
    match ← readStep fs folder name with
    | (fs, some place) => readAlong fs place names
    | (fs, none) => return (fs, none)

/-- Adds the folders on a path and what stands at its end. -/
def readAround (fs : FileSystem) (path : String) : IO FileSystem := do
  return (← readAlong fs (if isAbsolutePath path then [] else fs.working) (pathSteps path)).1

mutual

/-- Where the links of a tree lead. -/
def targets : Node → List String
  | .link target => [folderPath target.names]
  | .folder _ es => targetsOfEntries es
  | _ => []

/-- Where the links below some entries lead. -/
def targetsOfEntries : List (FileName × Node) → List String
  | [] => []
  | (_, n) :: es => targets n ++ targetsOfEntries es

end

/-- Adds all that some paths lead to, and then what the links among it lead to, as often as links may
    be followed. -/
def readAll (fs : FileSystem) (paths : List String) : Nat → IO FileSystem
  | 0 => return fs
  | rounds + 1 => do
    let mut fs := fs
    let mut links := []
    for path in paths do
      let folder := if isAbsolutePath path then [] else fs.working
      let (read, place) ← readAlong fs folder (pathSteps path)
      fs := read
      if let some place := place then
        if let some name := place.getLast? then
          if let some node ← readNode? (entry place.dropLast name) then
            fs := fs.put place node
            links := links ++ targets node
    if links.isEmpty then return fs else readAll fs links.eraseDups rounds

/-- Adds all that a path leads to. -/
def readWhole (fs : FileSystem) (path : String) : IO FileSystem :=
  readAll fs [path] FileSystem.maxLinks

/-- A file tree with the working folder only. -/
def start : IO FileSystem := do
  let working := (← IO.currentDir).toString
  readAround { root := .folder {} [], working := namesOf working } working

end PrimaryDex.Disk
