import PrimaryDex.Text.Cut

namespace PrimaryDex.ClassPath

/-!
# Locations of a class path

`locations` splits the text that defines a class path (`a.jar:classes/`).
-/

/-- The locations between the colons, without empty ones. -/
def locations (definition : String) : List String :=
  ((Text.pieces ':' definition.toList).filter (· ≠ [])).map String.ofList

end PrimaryDex.ClassPath
