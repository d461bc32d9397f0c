import PrimaryDex.CommandLine.Parameter

namespace PrimaryDex

/-!
# How the program is called

* `usage` — the help that the program gives;
* `UsageError.message` — the wording of a command line that can not be followed.
-/

/-- What the program does and how it is called. -/
def usage : String :=
  "Compute the classes that must be packaged in the primary dex file

Usage: main-dex-list [OPTIONS] [build] [ROOTS] [CLASSPATH]
       main-dex-list [OPTIONS] list <LOCATION>

Arguments:
  [ROOTS]      Jar or directory whose class files are the roots
  [CLASSPATH]  Classpath to search, separated like PATH
  <LOCATION>   Classpath entry whose files are to be printed

Options of a build:
      --root <CLASS>       Additional root class, in a.b.C or a/b/C.class form
      --roots-file <FILE>  File listing root classes, one per line
  -f, --format <FORMAT>    [possible values: text, json]
  -o, --output <FILE>      File to write instead of the standard output

Options:
      --config <FILE>
  -v, --verbose
  -q, --quiet
  -h, --help               Print help
"

/-- The wording of a command line that can not be followed. -/
def UsageError.message : UsageError → String
  | helpRequested | nothingAsked => usage
  | noCommand => "error: a command is required but none was given"
  | unknownCommand => "error: unrecognized command"
  | unknownArgument => "error: unexpected argument found"
  | missingArgument => "error: a required argument was not given"
  | badValue => "error: an option has no value or an invalid one"
  | conflict => "error: arguments are given that can not be used together"
  | unwantedValue => "error: a value is given to an option that takes none"

end PrimaryDex
