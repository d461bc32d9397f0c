import PrimaryDex.Fault
import PrimaryDex.Json.Reader

namespace PrimaryDex

/-!
# What can make a run fail

`RunError` lists what ends a run that was called correctly.

* `RunError.message` — its wording: what the program was about to do, and then what went wrong;
* `RunError.breaksOff` — whether the run breaks off instead of failing in order.
-/

/-- What ends a run. -/
inductive RunError where
  | rootContainer (location : String) (cause : Fault)
  | rootsFile (path : String) (cause : FileError)
  | configFile (path : String) (cause : FileError)
  | configText (path : String) (cause : Json.Error)
  | noRoots
  | noClassPath
  | classPath (cause : Fault)
  /-- A fault of the closure, or of the container that is to be listed. -/
  | search (cause : Fault)
  | outputFolder (cause : FileError)
  | outputFile (path : String) (cause : FileError)
  deriving DecidableEq

/-- The name of the environment variable that defines the class path. -/
def classPathVariable : String := "MAIN_DEX_CLASSPATH"

namespace RunError

/-- The wording of what ends a run. -/
def message : RunError → String
  | rootContainer location cause =>
    s!"\"{location}\" can not be read as a root container: {cause.account}"
  | rootsFile path cause => s!"Failed to read roots file: {path}: {cause.message}"
  | configFile path cause => s!"Failed to read config file: {path}: {cause.message}"
  | configText path cause => s!"Failed to parse config file: {path}: {cause.message}"
  | noRoots => "No root classes given (pass a jar of roots, --root or --roots-file)"
  | noClassPath =>
    s!"No classpath given (pass it as an argument, set {classPathVariable}, "
      ++ "or add it to the config file)"
  | classPath cause => s!"Wrong classpath: {cause.account}"
  | search cause => cause.account
  | outputFolder cause => cause.message
  | outputFile path cause => s!"Failed to write output file: {path}: {cause.message}"

/-- Whether a run breaks off, which a fault of a container can make it do. -/
def breaksOff : RunError → Bool
  | rootContainer _ cause | classPath cause | search cause => cause.breaksOff
  | _ => false

end RunError

end PrimaryDex
