import PrimaryDex.ClassName

namespace PrimaryDex

open Text

/-!
# Lists of roots

`rootLines` reads a text with one class name on each line. Lines that are blank or start with `#`
name nothing.
-/

/-- The class that a line names, if it names one. -/
def rootLine? (line : List Char) : Option ClassName :=
  let t := trim line
  if t = [] ∨ t.head? = some '#' then none else some (.ofSpelling (String.ofList t))

/-- The classes that the lines of a text name. A carriage return at the end of a line is blank. -/
def rootLines (t : String) : List ClassName :=
  (pieces '\n' t.toList).filterMap rootLine?

end PrimaryDex
