import PrimaryDex.ClassPath.Locations
import PrimaryDex.Json.Expect
import PrimaryDex.Report

namespace PrimaryDex

/-!
# Settings

A user keeps defaults in a configuration file, which is a JSON object or a list of its values in
order.

* `Settings.parse` — reads a configuration file. Keys that it does not know are passed over;
* `Settings.chosenClassPath?`, `Settings.chosenFormat` — what counts for a run: what it was called with
  goes before the environment, and that before the settings.
-/

/-- The defaults of a user. -/
structure Settings where
  classPath : List String
  format : Option OutputFormat
  rootsFile : Option String
  deriving DecidableEq

namespace Settings

/-- No defaults. -/
def empty : Settings := ⟨[], none, none⟩

/-! ### Configuration files -/

open Json (Problem Reader)

/-- The settings that a configuration file has given so far. -/
structure Given where
  classPath : Option (List String)
  format : Option (Option OutputFormat)
  rootsFile : Option (Option String)

/-- What is given and what is left out. -/
def Given.settings (g : Given) : Settings :=
  ⟨g.classPath.getD [], g.format.join, g.rootsFile.join⟩

/-- Reads a path. -/
def path : Reader String := Reader.text "path string"

/-- Reads the locations of a class path. -/
def locations : Reader (List String) := Reader.listOf "a sequence" path

/-- Reads the name of a format. -/
def formatName : Reader (Option OutputFormat) := Reader.optional (Reader.choice OutputFormat.choices)

/-- Reads the path of a list of roots. -/
def rootsPath : Reader (Option String) := Reader.optional path

/-- Chooses how to read the value of a key. A key that it knows may not come again. -/
def member (key : String) (g : Given) : Except Problem (Reader Given) :=
  let once {α : Type} (before : Option α) (r : Reader Given) : Except Problem (Reader Given) :=
    if before.isSome then .error (.repeatedKey key) else .ok r
  match key with
  | "classpath" => once g.classPath do return { g with classPath := some (← locations) }
  | "format" => once g.format do return { g with format := some (← formatName) }
  | "roots_file" => once g.rootsFile do return { g with rootsFile := some (← rootsPath) }
  | _ => .ok do
    Reader.skipValue
    return g

/-- Reads settings as the members of an object. -/
def ofMembers : Reader Settings := Given.settings <$> Reader.members member ⟨none, none, none⟩

/-- Reads settings as the elements of a list. -/
def ofElements : Reader Settings := do
  let classPath ← Reader.element true locations
  let format ← Reader.element classPath.isNone formatName
  let rootsFile ← Reader.element classPath.isNone rootsPath
  Reader.listEnd
  return Given.settings ⟨classPath, format, rootsFile⟩

/-- Reads settings. -/
def reader : Reader Settings := do
  match ← Reader.peekToken with
  | none => Reader.failNext .endInValue
  | some '[' =>
    Reader.advance
    ofElements
  | some '\x7b' =>
    Reader.advance
    ofMembers
  | some _ => Reader.refuse "struct Config"

/-- Reads the text of a configuration file. -/
def parse (text : String) : Except Json.Error Settings := reader.read text

/-! ### What counts for a run -/

/-- The locations of the class path: those that a run was called with, even if it names none, or else
    those of the environment, or else those of the settings, if they name any. -/
def chosenClassPath? (s : Settings) (argument environment : Option String) : Option (List String) :=
  match argument with
  | some definition => some (ClassPath.locations definition)
  | none => [(environment.map ClassPath.locations).getD [], s.classPath].find? (· ≠ [])

/-- The format of the output, which is text unless something else is asked for. -/
def chosenFormat (s : Settings) (argument : Option OutputFormat) : OutputFormat :=
  (argument <|> s.format).getD .text

end Settings

end PrimaryDex
