import PrimaryDex.Container
import PrimaryDex.Program.RunError
import PrimaryDex.RootLines

namespace PrimaryDex

/-!
# Where roots come from

* `rootsOfContainer` — the classes of all class files in a folder or an archive;
* `rootsOfFile` — the classes that the lines of a file name.
-/

/-- The classes of those paths that are of class files. -/
def classesOfPaths (paths : List String) : List ClassName :=
  (paths.filter fun p => ClassName.extension.isSuffixOf p.toList).map ClassName.ofPath

/-- The classes in the container at a location. -/
def rootsOfContainer (fs : FileSystem) (location : String) : Except RunError (List ClassName) :=
  match Container.ofLocation fs location >>= Container.files fs with
  | .ok paths => .ok (classesOfPaths paths)
  | .error cause => .error (.rootContainer location cause)

/-- The classes that a file names. -/
def rootsOfFile (fs : FileSystem) (path : String) : Except RunError (List ClassName) :=
  match fs.readText path with
  | .ok t => .ok (rootLines t)
  | .error cause => .error (.rootsFile path cause)

end PrimaryDex
