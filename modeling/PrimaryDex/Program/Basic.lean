import PrimaryDex.Closure.Basic
import PrimaryDex.CommandLine.ImplicitBuild
import PrimaryDex.FileTree.Change
import PrimaryDex.Program.Settings
import PrimaryDex.Program.Roots

namespace PrimaryDex

/-!
# Runs of the program

A run reads its command line and its surroundings, finds its answer and delivers it. Only the delivery
changes anything.

* `answer` — what a command line asks for: a closure, or the files of a container;
* `Answer.deliver` — writes an answer to the output, or to the file that was asked for;
* `Surroundings.run` — a whole run.
-/

/-- What a run depends on besides its command line. -/
structure Surroundings where
  files : FileSystem
  /-- The class path of the environment. -/
  classPath : Option String
  /-- The folder for the configuration of the user's programs. -/
  configFolder : Option String
  deriving Inhabited

/-- What a run has found. -/
inductive Answer where
  /-- A closure, the number of its roots, and how and where it is to be written. -/
  | closure (names : List ClassName) (roots : Nat) (format : OutputFormat) (output : Option String)
  /-- The paths of the files of a container. -/
  | files (paths : List String)

namespace Surroundings

/-! ### Finding an answer -/

/-- The roots of a build: those of a container first, then those of a file, which the settings can
    name, and then those that are named one by one. -/
def roots (s : Surroundings) (settings : Settings) (o : BuildOptions) :
    Except RunError (List ClassName) := do
  let ofContainer ← match o.roots with
    | some location => rootsOfContainer s.files location
    | none => .ok []
  let ofFile ← match o.rootsFile <|> settings.rootsFile with
    | some path => rootsOfFile s.files path
    | none => .ok []
  let all := ofContainer ++ ofFile ++ o.rootNames.map ClassName.ofSpelling
  if all.isEmpty then throw .noRoots
  return all

/-- The closure that a build asks for. -/
def build (s : Surroundings) (settings : Settings) (o : BuildOptions) : Except RunError Answer := do
  let roots ← s.roots settings o
  let locations ← settings.chosenClassPath o.classPath s.classPath
  let cp ← (ClassPath.ofLocations s.files locations).mapError .classPath
  let names ← (cp.closure s.files roots).mapError .search
  return .closure names roots.length (settings.chosenFormat o.format) o.output

/-- The files of the container at a location. -/
def list (s : Surroundings) (location : String) : Except RunError Answer :=
  match Container.ofLocation s.files location >>= Container.files s.files with
  | .ok paths => .ok (.files paths)
  | .error cause => .error (.search cause)

/-- What a command line asks for. -/
def answer (s : Surroundings) (l : CommandLine) : Except RunError Answer := do
  let settings ← Settings.load s.files s.configFolder l.config
  match l.command with
  | .build options => s.build settings options
  | .list location => s.list location

end Surroundings

/-! ### Delivering it -/

/-- How a run ends. -/
inductive Ending where
  | done
  | failed (cause : RunError)
  /-- The run stops where it is. -/
  | brokenOff (cause : RunError)
  | misused (cause : UsageError)
  deriving DecidableEq

/-- What a run leaves behind. -/
structure Outcome where
  ending : Ending
  /-- What is written to the output. -/
  output : String
  files : FileSystem

/-- The number that a run ends with. It is not zero unless the run did what it was asked for. -/
def Ending.status : Ending → UInt8
  | done | misused .helpRequested => 0
  | failed _ => 1
  | brokenOff _ => 101
  | misused _ => 2

/-- How a run ends that finds no answer. -/
def Ending.ofError (cause : RunError) : Ending :=
  if cause.breaksOff then .brokenOff cause else .failed cause

namespace Answer

/-- The text of an answer that took some milliseconds to find. -/
def text (milliseconds : Nat) : Answer → String
  | closure names roots format _ => format.render ⟨roots, names, milliseconds⟩
  | files paths => String.join (paths.map (· ++ "\n"))

/-- The file that an answer is to be written to. -/
def target? : Answer → Option String
  | closure _ _ _ output => output
  | files _ => none

/-- The text with a line feed at its end, unless it is empty. -/
def line (text : String) : String :=
  match text.toList.getLast? with
  | none | some '\n' => text
  | some _ => text ++ "\n"

/-- Writes a text to a file, in a folder that is made if need be. -/
def save (files : FileSystem) (path text : String) : Outcome :=
  let folder := files.makeParent path
  match folder.result with
  | .error cause => ⟨.failed (.outputFolder cause), "", folder.after⟩
  | .ok () =>
    let file := folder.after.writeFile path text.toUTF8
    match file.result with
    | .error cause => ⟨.failed (.outputFile path cause), "", file.after⟩
    | .ok () => ⟨.done, "", file.after⟩

/-- Delivers an answer that took some milliseconds to find. -/
def deliver (files : FileSystem) (milliseconds : Nat) (a : Answer) : Outcome :=
  match a.target? with
  | some path => save files path (a.text milliseconds)
  | none => ⟨.done, line (a.text milliseconds), files⟩

end Answer

namespace Surroundings

/-- A run with a command line that can be followed. -/
def follow (s : Surroundings) (milliseconds : Nat) (l : CommandLine) : Outcome :=
  match s.answer l with
  | .ok a => a.deliver s.files milliseconds
  | .error cause => ⟨.ofError cause, "", s.files⟩

/-- A run with the arguments behind the name of the program, which takes some milliseconds. -/
def run (s : Surroundings) (milliseconds : Nat) (arguments : List String) : Outcome :=
  match CommandLine.parse (CommandLine.withBuild arguments) with
  | .ok l => s.follow milliseconds l
  | .error cause => ⟨.misused cause, "", s.files⟩

end Surroundings

end PrimaryDex
