import PrimaryDex.CommandLine.Usage
import PrimaryDex.Disk
import PrimaryDex.Program.Basic

/-!
# The command line of the program

`main` reads from the disk what a run can ask for, runs, and writes what the run leaves behind.
-/

namespace PrimaryDex

/-- The folder for the configuration of the user's programs. -/
def configFolder : IO (Option String) := do
  match ← IO.getEnv "XDG_CONFIG_HOME" with
  | some folder => if isAbsolutePath folder then return some folder
  | none => pure ()
  return (← IO.getEnv "HOME").map (joinPath · ".config")

/-- The locations that a command line asks for, under some settings. -/
def locationsOf (s : Surroundings) (settings : Settings) : Command → List String
  | .list location => [location]
  | .build o =>
    let classPath := settings.chosenClassPath o.classPath s.classPath
    o.roots.toList ++ (o.rootsFile <|> settings.rootsFile).toList ++ classPath.toOption.getD []

/-- The file that a command line asks to write. -/
def outputOf : Command → Option String
  | .list _ => none
  | .build o => o.output

/-- Reads all that a run with a command line can ask for. -/
def readSurroundings (l : CommandLine) : IO Surroundings := do
  let folder ← configFolder
  let mut fs ← Disk.start
  for path in (l.config <|> folder.map Settings.usualPath).toList do
    fs ← Disk.readWhole fs path
  let s : Surroundings := ⟨fs, ← IO.getEnv classPathVariable, folder⟩
  match Settings.load fs folder l.config with
  | .error _ => return s
  | .ok settings =>
    for location in locationsOf s settings l.command do
      fs ← Disk.readWhole fs location
    for path in (outputOf l.command).toList do
      fs ← Disk.readAround fs path
    return { s with files := fs }

/-- Writes to a path what a run has written there, in a folder that is made if need be. The disk may
    refuse what the run could do. -/
def saveFrom (fs : FileSystem) (path : String) : IO Ending := do
  let file : IO.FS.DirEntry := ⟨Disk.folderPath fs.working, path⟩
  try if let some folder := file.path.parent then IO.FS.createDirAll folder
  catch fault => return .failed (.outputFolder (Disk.causeOf fault))
  try
    let handle ← IO.FS.Handle.mk file.path .write
    handle.write ((fs.written? path).getD .empty)
    handle.flush
  catch fault => return .failed (.outputFile path (Disk.causeOf fault))
  return .done

/-- Prints how a run ended, and gives its number. -/
def conclude (e : Ending) : IO UInt32 := do
  match e with
  | .done => pure ()
  | .failed cause => IO.eprintln ("A fatal error occurred: " ++ cause.message)
  | .brokenOff cause => IO.eprintln cause.message
  | .misused .helpRequested => IO.print usage
  | .misused cause => IO.eprintln cause.message
  return e.status.toUInt32

/-- Does on the disk what a run did to its surroundings. -/
def carryOut (outcome : Outcome) (output : Option String) : IO UInt32 := do
  IO.print outcome.output
  match outcome.ending, output with
  | .done, some path => conclude (← saveFrom outcome.files path)
  | ending, _ => conclude ending

end PrimaryDex

open PrimaryDex in
/-- Runs with the arguments behind the name of the program. The time of a run is that of reading the
    disk. -/
def main (arguments : List String) : IO UInt32 := do
  let line := (CommandLine.parse (CommandLine.withBuild arguments)).toOption
  let before ← IO.monoMsNow
  let s ← match line with
    | some l => readSurroundings l
    | none => pure default
  let after ← IO.monoMsNow
  carryOut (s.run (after - before) arguments) (line.bind (outputOf ·.command))
