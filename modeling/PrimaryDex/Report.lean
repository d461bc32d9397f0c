import PrimaryDex.ClassName
import PrimaryDex.Json.Printer
import PrimaryDex.Sha256

namespace PrimaryDex

/-!
# Writing closures

A closure is written as a list of class files or as a report.

* `classList` — the path of each class, in order and on a line of its own;
* `Report` — a closure with what is worth knowing about it;
* `OutputFormat.render` — the text of a closure in either format.
-/

/-- How a closure is written. -/
inductive OutputFormat where
  | text
  | json
  deriving DecidableEq

namespace OutputFormat

/-- The names of the formats. -/
def choices : List (String × OutputFormat) := [("text", text), ("json", json)]

/-- The format with a given name. -/
def ofName? (name : String) : Option OutputFormat := choices.lookup name

end OutputFormat

/-- The paths of the class files of some classes, each on a line. -/
def classList (closure : List ClassName) : String :=
  String.join (closure.map (·.path ++ "\n"))

/-- A closure and how it came about. -/
structure Report where
  /-- The number of roots, where a root that is given twice counts twice. -/
  roots : Nat
  closure : List ClassName
  milliseconds : Nat

namespace Report

/-- What tells whether two closures are the same: the hash of the list of classes. -/
def digest (r : Report) : String := Sha256.hexDigest (classList r.closure)

/-- The report as a value. -/
def value (r : Report) : Json.Value := .object [
  ("roots", .number r.roots),
  ("classes", .number r.closure.length),
  ("digest", .string r.digest),
  ("duration_ms", .number r.milliseconds),
  ("units", .list (r.closure.map (.string ·.path)))]

end Report

/-- Writes the closure of a report. -/
def OutputFormat.render (format : OutputFormat) (r : Report) : String :=
  match format with
  | text => classList r.closure
  | json => r.value.pretty

end PrimaryDex
