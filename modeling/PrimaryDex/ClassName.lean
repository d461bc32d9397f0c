import PrimaryDex.Text.Blank
import PrimaryDex.Text.Cut

namespace PrimaryDex

open Text

/-!
# Class names

A class is known by the JVM's internal name (`java/lang/String`) and its class file by a path that
ends in `.class`. Each determines the other, so one text is kept:

* `ClassName.path` — the path of the class file;
* `ClassName.ofPath` — the class at a path, which may lack the extension;
* `ClassName.ofSpelling` — the class that a user means by `a.b.C`, `a/b/C` or `a/b/C.class`.
-/

/-- The name of a class, in its internal form. -/
structure ClassName where
  internal : String
  deriving DecidableEq, Hashable, Inhabited

namespace ClassName

/-- The extension of class files. -/
def extension : List Char := ['.', 'c', 'l', 'a', 's', 's']

/-- Where the class file stands, relative to a container: `a/B$C.class`. -/
def path (n : ClassName) : String :=
  String.ofList (n.internal.toList ++ extension)

/-- The class whose file has the path `p`. A path without the extension gets one. -/
def ofPath (p : String) : ClassName :=
  ⟨String.ofList (trimSuffix extension p.toList)⟩

/-- The path of a class is its name with the extension behind it. -/
theorem toList_path (n : ClassName) : n.path.toList = n.internal.toList ++ extension := by
  rw [path, String.toList_ofList]

/-- The class at the path of a class is that class. -/
@[simp] theorem ofPath_path (n : ClassName) : ofPath n.path = n := by
  simp [ofPath, path]

/-- Different classes have different paths. -/
theorem path_injective {m n : ClassName} (h : m.path = n.path) : m = n := by
  rw [← ofPath_path m, h, ofPath_path]

/-- A path that has the extension is the path of its class. -/
theorem path_ofPath {p : String} {t : List Char} (h : p.toList = t ++ extension) :
    (ofPath p).path = p := by
  rw [ofPath, h, trimSuffix_append, path]
  simp [← h]

/-- Backslashes stand for slashes. -/
def slashed (t : List Char) : List Char :=
  t.map fun c => if c = '\\' then '/' else c

/-- Dots separate packages. -/
def undotted (t : List Char) : List Char :=
  t.map fun c => if c = '.' then '/' else c

/-- Reads a name as users spell it. Blanks around it do not count. With a slash or a backslash it is
    a path, where dots are part of the name; otherwise dots separate the packages, apart from the
    one of a final `.class`. -/
def ofSpelling (s : String) : ClassName :=
  let t := slashed (trim s.toList)
  if '/' ∈ t then ofPath (String.ofList t)
  else ⟨String.ofList (undotted (trimSuffix extension t))⟩

end ClassName

end PrimaryDex
