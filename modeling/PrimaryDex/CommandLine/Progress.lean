import PrimaryDex.CommandLine.Parameter

namespace PrimaryDex

/-!
# Taking arguments

`Progress` is what the arguments of a level have set so far. The parameter that was set last is not
checked before another one is set or the level ends, so that an argument which is not known at all is
reported first.

* `Progress.take` — takes one argument;
* `Progress.takeBehindDashes` — takes one that can only stand for itself, behind `--`;
* `Progress.check` — checks what is not checked yet.
-/

/-- What the form of an argument tells about it. -/
inductive Shape where
  /-- `--`, behind which there are no options. -/
  | dashes
  /-- `--name` or `--name=value`. -/
  | named (name : String) (value : Option String)
  /-- `-abc`, letters of options, of which the last one may have a value attached. -/
  | letters (letters : List Char)
  | plain
  deriving DecidableEq

/-- The name and the value around the first equals sign. -/
def namedShape (t : List Char) : Shape :=
  match t.dropWhile (· ≠ '=') with
  | [] => .named (String.ofList t) none
  | _ :: value => .named (String.ofList (t.takeWhile (· ≠ '='))) (some (String.ofList value))

/-- The shape of an argument. A single dash is a plain one. -/
def Shape.ofArgument (a : String) : Shape :=
  match a.toList with
  | ['-', '-'] => .dashes
  | '-' :: '-' :: t => namedShape t
  | '-' :: c :: t => .letters (c :: t)
  | _ => .plain

/-- What is set, and what can still be set by position. -/
structure Progress where
  level : Level
  /-- What is set and checked, with an empty value for options that take none, in order. -/
  given : List (Parameter × String)
  /-- What is not checked yet. An option may still wait for its value. -/
  unchecked : Option (Parameter × Option String)
  /-- What the next arguments set by their positions. -/
  positions : List Parameter

namespace Progress

/-- The start of a level. -/
def start (l : Level) : Progress := ⟨l, [], none, l.positions⟩

/-- Whether a parameter is set. -/
def isSet (p : Progress) (x : Parameter) : Bool := p.given.any (·.1 = x)

/-- The value of a parameter. -/
def value? (p : Progress) (x : Parameter) : Option String := p.given.lookup x

/-- The values of a parameter in order. -/
def values (p : Progress) (x : Parameter) : List String :=
  (p.given.filter (·.1 = x)).map (·.2)

/-- Sets a parameter. -/
def add (p : Progress) (x : Parameter) (value : String) : Except UsageError Progress :=
  if p.isSet x && !x.isRepeatable then .error .conflict
  else if !x.accepts value then .error .badValue
  else .ok { p with given := p.given ++ [(x, value)] }

/-- Checks what is not checked yet. -/
def check (p : Progress) : Except UsageError Progress :=
  match p.unchecked with
  | none => .ok p
  | some (_, none) => .error .badValue
  | some (x, some value) => { p with unchecked := none }.add x value

/-- Whether an option waits for its value. -/
def awaitsValue (p : Progress) : Bool :=
  match p.unchecked with
  | some (_, none) => true
  | _ => false

/-- Sets an option that takes no value. -/
def addFlag (p : Progress) (x : Parameter) : Except UsageError Progress := do
  let p ← p.check
  if x = .help then throw .helpRequested
  p.add x ""

/-- Sets an option that has its value attached to it, or else waits for its value. -/
def addOption (p : Progress) (x : Parameter) (attached : Option String) :
    Except UsageError Progress := do
  let p ← p.check
  match attached with
  | some value => p.add x value
  | none => return { p with unchecked := some (x, none) }

/-- The value that is attached to the letter of an option, with or without an equals sign. -/
def attached? : List Char → Option String
  | [] => none
  | '=' :: t => some (String.ofList t)
  | t => some (String.ofList t)

/-- Takes the letters of options. -/
def takeLetters (p : Progress) : List Char → Except UsageError Progress
  | [] => .ok p
  | c :: cs =>
    match p.level.lettered? c with
    | none => .error .unknownArgument
    | some x =>
      if x.takesValue then p.addOption x (attached? cs)
      else match p.addFlag x with
        | .ok p => takeLetters p cs
        | .error e => .error e

/-- Takes an option by its name. -/
def takeNamed (p : Progress) (name : String) (value : Option String) : Except UsageError Progress :=
  match p.level.named? name with
  | none => .error .unknownArgument
  | some x =>
    if x.takesValue then p.addOption x value
    else if value.isSome then .error .unwantedValue
    else p.addFlag x

/-- Takes an argument that sets the next parameter by its position, if one is left. Where there are
    commands, it should have been one. -/
def takePositional (p : Progress) (a : String) : Except UsageError Progress :=
  match p.positions with
  | x :: positions => do
    let p ← p.check
    return { p with unchecked := some (x, some a), positions }
  | [] => .error (if p.level.commands.isEmpty then .unknownArgument else .unknownCommand)

/-- Takes an argument behind `--`. A command can not stand there. -/
def takeBehindDashes (p : Progress) (a : String) : Except UsageError Progress :=
  if a ∈ p.level.commands then .error .unknownArgument else p.takePositional a

/-- Takes an argument that is not `--`. Where a value is awaited, it is that value, unless it looks
    like an option. -/
def take (p : Progress) (a : String) : Except UsageError Progress :=
  match Shape.ofArgument a, p.unchecked with
  | .named name value, _ => p.takeNamed name value
  | .letters letters, _ => p.takeLetters letters
  | _, some (x, none) => .ok { p with unchecked := some (x, some a) }
  | _, _ => p.takePositional a

end Progress

end PrimaryDex
