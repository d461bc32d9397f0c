import PrimaryDex.CommandLine.Basic

namespace PrimaryDex.CommandLine

/-!
# Leaving out the command

A command line without a command asks to build. `withBuild` puts the command in, in front of all other
arguments, where the general options are understood too.
-/

/-- The options whose value is the next argument. -/
def optionsWithValue : List String :=
  ["--config", "--root", "--roots-file", "-f", "--format", "-o", "--output"]

/-- Whether an argument has the form of an option. -/
def isOption (a : String) : Bool := a.toList.head? = some '-'

/-- The first argument that is neither an option nor the value of one. -/
def firstPlain? : List String → Option String
  | [] => none
  | a :: rest =>
    if a = "--" then rest.head?
    else if a ∈ optionsWithValue then
      match rest with
      | [] => none
      | _ :: rest => firstPlain? rest
    else if isOption a then firstPlain? rest
    else some a

/-- The arguments behind the name of the program, with the command that is left out. It is left out if
    the first argument that could be a command is none. -/
def withBuild (arguments : List String) : List String :=
  match firstPlain? arguments with
  | some a => if a ∈ Level.top.commands then arguments else "build" :: arguments
  | none => arguments

end PrimaryDex.CommandLine
