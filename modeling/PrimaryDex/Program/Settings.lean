import PrimaryDex.FileTree.Lookup
import PrimaryDex.Program.RunError
import PrimaryDex.Settings

namespace PrimaryDex.Settings

/-!
# Settings of a run

* `Settings.ofFile` — the settings in a configuration file;
* `Settings.load` — those in the file that a run was called with, or else in the one that the user
  keeps, if there is one;
* `Settings.chosenClassPath` — the class path of a run, which must come from somewhere.
-/

/-- Reads a configuration file. -/
def ofFile (fs : FileSystem) (path : String) : Except RunError Settings :=
  match fs.readText path with
  | .error cause => .error (.configFile path cause)
  | .ok text =>
    match parse text with
    | .ok s => .ok s
    | .error cause => .error (.configText path cause)

/-- Where a user keeps the configuration file. -/
def usualPath (configFolder : String) : String :=
  joinPath (joinPath configFolder "main-dex-list") "config.json"

/-- The settings for a run. -/
def load (fs : FileSystem) (configFolder argument : Option String) : Except RunError Settings :=
  match argument with
  | some path => ofFile fs path
  | none =>
    match (configFolder.map usualPath).filter fun path => (fs.stat path).isOk with
    | some path => ofFile fs path
    | none => .ok empty

/-- The locations of the class path of a run. -/
def chosenClassPath (s : Settings) (argument environment : Option String) :
    Except RunError (List String) :=
  match s.chosenClassPath? argument environment with
  | some locations => .ok locations
  | none => .error .noClassPath

end PrimaryDex.Settings
