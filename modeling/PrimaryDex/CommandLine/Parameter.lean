import PrimaryDex.Report

namespace PrimaryDex

/-!
# Parameters of the program

* `Parameter` — what can be set on a command line, by an option or by a position;
* `Level` — the part of a command line that an argument belongs to, which says what may be set there;
* `UsageError` — why a command line can not be followed.
-/

/-- Why a command line can not be followed. -/
inductive UsageError where
  /-- The user asks how to call the program. -/
  | helpRequested
  /-- There is nothing but the name of the program. -/
  | nothingAsked
  | noCommand
  | unknownCommand
  | unknownArgument
  | missingArgument
  /-- A value is missing or is not one that the parameter takes. -/
  | badValue
  /-- A parameter is set twice, or beside one that excludes it. -/
  | conflict
  /-- A value is given to an option that takes none. -/
  | unwantedValue
  deriving DecidableEq

/-- What can be set on a command line. -/
inductive Parameter where
  | config
  | verbose
  | quiet
  | help
  | root
  | rootsFile
  | format
  | output
  | roots
  | classPath
  | location
  deriving DecidableEq

namespace Parameter

/-- The name of an option behind two dashes. -/
def name? : Parameter → Option String
  | config => some "config"
  | verbose => some "verbose"
  | quiet => some "quiet"
  | help => some "help"
  | root => some "root"
  | rootsFile => some "roots-file"
  | format => some "format"
  | output => some "output"
  | _ => none

/-- The letter of an option behind one dash. -/
def letter? : Parameter → Option Char
  | verbose => some 'v'
  | quiet => some 'q'
  | help => some 'h'
  | format => some 'f'
  | output => some 'o'
  | _ => none

/-- Whether an option needs a value. -/
def takesValue : Parameter → Bool
  | verbose | quiet | help => false
  | _ => true

/-- Whether a parameter may be set more than once. -/
def isRepeatable (p : Parameter) : Bool := p = root

/-- Whether a parameter takes a value. Paths are not empty. -/
def accepts (p : Parameter) (value : String) : Bool :=
  match p with
  | config | rootsFile | output | roots | location => value ≠ ""
  | format => (OutputFormat.ofName? value).isSome
  | verbose | quiet | help | root | classPath => true

end Parameter

/-- A part of a command line: what stands before the command, or what stands behind it. -/
inductive Level where
  | top
  | build
  | list
  deriving DecidableEq

namespace Level

/-- The options of every level. -/
def generalOptions : List Parameter := [.config, .verbose, .quiet, .help]

/-- The options of a level. -/
def options : Level → List Parameter
  | build => generalOptions ++ [.root, .rootsFile, .format, .output]
  | _ => generalOptions

/-- What the arguments of a level set by their positions. -/
def positions : Level → List Parameter
  | top => []
  | build => [.roots, .classPath]
  | list => [.location]

/-- The commands that a level has. -/
def commands : Level → List String
  | top => ["build", "list", "help"]
  | _ => []

/-- The option with a name. -/
def named? (l : Level) (name : String) : Option Parameter :=
  l.options.find? (·.name? = some name)

/-- The option with a letter. -/
def lettered? (l : Level) (letter : Char) : Option Parameter :=
  l.options.find? (·.letter? = some letter)

end Level

end PrimaryDex
