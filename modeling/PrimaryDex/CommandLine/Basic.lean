import PrimaryDex.CommandLine.Progress

namespace PrimaryDex

/-!
# Command lines

* `CommandLine` — what the program is asked to do;
* `CommandLine.parse` — reads the arguments behind the name of the program.
-/

/-- How a closure is to be built. -/
structure BuildOptions where
  /-- The container with the roots. -/
  roots : Option String
  classPath : Option String
  rootNames : List String
  rootsFile : Option String
  format : Option OutputFormat
  output : Option String
  deriving DecidableEq

/-- What the program can do. -/
inductive Command where
  | build (options : BuildOptions)
  | list (location : String)
  deriving DecidableEq

/-- What the program is asked to do. -/
structure CommandLine where
  command : Command
  config : Option String
  verbose : Bool
  quiet : Bool
  deriving DecidableEq

namespace CommandLine

/-- A command and the arguments behind it. -/
abbrev Call := String × List String

/-- Takes arguments up to a command, which does not count as one where a value is awaited. -/
def takeAll (p : Progress) : List String → Except UsageError (Progress × Option Call)
  | [] => .ok (p, none)
  | a :: rest =>
    if !p.awaitsValue && p.level.commands.contains a then .ok (p, some (a, rest))
    else if Shape.ofArgument a = .dashes then
      match rest.foldlM Progress.takeBehindDashes p with
      | .ok p => .ok (p, none)
      | .error e => .error e
    else match p.take a with
      | .ok p => takeAll p rest
      | .error e => .error e

/-- Checks what excludes each other on a level. -/
def checkExclusion (p : Progress) : Except UsageError Unit :=
  if p.isSet .verbose && p.isSet .quiet then .error .conflict else .ok ()

/-- The options of a level that has a command behind it, or is behind a command. -/
def checkLevel (p : Progress) : Except UsageError Progress := do
  let p ← p.check
  checkExclusion p
  return p

/-- Takes the arguments behind a command. -/
def takeBehind (l : Level) (arguments : List String) : Except UsageError Progress := do
  let (p, _) ← takeAll (.start l) arguments
  checkLevel p

/-- The options behind the command to build. -/
def buildOptions (p : Progress) : BuildOptions where
  roots := p.value? .roots
  classPath := p.value? .classPath
  rootNames := p.values .root
  rootsFile := p.value? .rootsFile
  format := (p.value? .format).bind OutputFormat.ofName?
  output := p.value? .output

/-- Reads what stands behind a command. -/
def parseCommand (call : Call) : Except UsageError (Progress × Command) :=
  match call with
  | ("build", arguments) => do
    let p ← takeBehind .build arguments
    return (p, .build (buildOptions p))
  | ("list", arguments) => do
    let p ← takeBehind .list arguments
    match p.value? .location with
    | some location => return (p, .list location)
    | none => throw .missingArgument
  -- Help can be asked for one command.
  | (_, []) | (_, ["build"]) | (_, ["list"]) | (_, ["help"]) => .error .helpRequested
  | _ => .error .unknownCommand

/-- Joins what is set before a command with what is set behind it, which goes first. -/
def ofLevels (outer inner : Progress) (command : Command) : CommandLine where
  command := command
  config := inner.value? .config <|> outer.value? .config
  verbose := inner.isSet .verbose || outer.isSet .verbose
  quiet := inner.isSet .quiet || outer.isSet .quiet

/-- Why arguments without a command can not be followed. -/
def withoutCommand (p : Progress) : UsageError :=
  match p.check with
  | .error e => e
  | .ok p => if p.given.isEmpty then .nothingAsked else .noCommand

/-- Reads the arguments behind the name of the program. What stands behind the command is checked
    before what stands before it. -/
def parse (arguments : List String) : Except UsageError CommandLine := do
  match ← takeAll (.start .top) arguments with
  | (outer, none) => throw (withoutCommand outer)
  | (outer, some call) =>
    let (inner, command) ← parseCommand call
    let outer ← checkLevel outer
    return ofLevels outer inner command

end CommandLine

end PrimaryDex
