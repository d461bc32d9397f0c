import PrimaryDex.ClassFile.FormatError
import PrimaryDex.ClassName

namespace PrimaryDex

/-!
# Type descriptors

* `FieldType` and `MethodType` — the types of fields and methods, with their written forms `chars`;
* `FieldType.read?` — reads a field type off the front of a text; a method's parameters are read one
  at a time, since a class name may hold any character but a semicolon;
* `MethodType.ofDescriptor` — reads a method type that is a whole text;
* `elementClass` — the class that a text names as a field descriptor. It looks only at texts that end
  in a semicolon, all others name no class.
-/

/-! ### Field types -/

/-- The primitive types. -/
inductive BaseType where
  | byte | char | double | float | int | long | short | boolean
  deriving DecidableEq

namespace BaseType

/-- The letter that stands for a primitive type. -/
def letter : BaseType → Char
  | byte => 'B'
  | char => 'C'
  | double => 'D'
  | float => 'F'
  | int => 'I'
  | long => 'J'
  | short => 'S'
  | boolean => 'Z'

/-- All primitive types. -/
def all : List BaseType := [byte, char, double, float, int, long, short, boolean]

/-- The primitive type with the given letter. -/
def ofLetter? (c : Char) : Option BaseType :=
  all.find? (·.letter = c)

/-- A primitive type is read from its letter. -/
theorem ofLetter?_letter (b : BaseType) : ofLetter? b.letter = some b := by
  cases b <;> rfl

end BaseType

/-- A class name inside a descriptor, which ends at the first semicolon. -/
structure ObjectName where
  chars : List Char
  ne_nil : chars ≠ []
  no_semicolon : ';' ∉ chars
  deriving DecidableEq

/-- The type of a field, a parameter or a result other than `void`. -/
inductive FieldType where
  | base (b : BaseType)
  | object (name : ObjectName)
  | array (element : FieldType)
  deriving DecidableEq

namespace FieldType

/-- The written form. -/
def chars : FieldType → List Char
  | base b => [b.letter]
  | object n => 'L' :: n.chars ++ [';']
  | array t => '[' :: t.chars

/-- The class of a type, which is that of the elements for an array. Primitive types have none. -/
def className? : FieldType → Option ClassName
  | base _ => none
  | object n => some ⟨String.ofList n.chars⟩
  | array t => t.className?

/-- Reads an object type behind its letter: a name up to the first semicolon. -/
def readObject? (cs : List Char) : Option (FieldType × List Char) :=
  match cs.dropWhile (· ≠ ';') with
  | [] => none
  | _ :: rest =>
    if h : cs.takeWhile (· ≠ ';') = [] then none
    else
      have hs : ';' ∉ cs.takeWhile (· ≠ ';') := fun hm => by
        simpa using List.all_eq_true.1 (List.all_takeWhile (p := fun c => decide (c ≠ ';'))) _ hm
      some (.object ⟨cs.takeWhile (· ≠ ';'), h, hs⟩, rest)

/-- Reads a field type off the front of a text. -/
def read? : List Char → Option (FieldType × List Char)
  | [] => none
  | c :: cs =>
    if c = '[' then (read? cs).map fun (t, rest) => (.array t, rest)
    else if c = 'L' then readObject? cs
    else (BaseType.ofLetter? c).map fun b => (.base b, cs)

/-- A class takes up its semicolon at least. -/
theorem length_lt_of_readObject? {cs rest : List Char} {t : FieldType}
    (h : readObject? cs = some (t, rest)) : rest.length < cs.length := by
  simp only [readObject?] at h
  split at h
  · simp at h
  · rename_i c r hd
    split at h
    · simp at h
    · simp only [Option.some.injEq, Prod.mk.injEq] at h
      have hl := (List.dropWhile_sublist (l := cs) (fun c => decide (c ≠ ';'))).length_le
      rw [hd, h.2, List.length_cons] at hl
      omega

/-- Reading consumes something. -/
theorem length_lt_of_read? {cs rest : List Char} {t : FieldType}
    (h : read? cs = some (t, rest)) : rest.length < cs.length := by
  induction cs generalizing t with
  | nil => simp [read?] at h
  | cons c cs ih =>
    simp only [read?] at h
    split at h
    · obtain ⟨⟨u, r⟩, hu, hr⟩ := Option.map_eq_some_iff.1 h
      simp only [Prod.mk.injEq] at hr
      have := ih (hr.2 ▸ hu)
      simp only [List.length_cons]
      omega
    · split at h
      · have := length_lt_of_readObject? h
        simp only [List.length_cons]
        omega
      · obtain ⟨b, _, hb⟩ := Option.map_eq_some_iff.1 h
        simp only [Prod.mk.injEq] at hb
        simp [hb.2]

end FieldType

/-! ### Method types -/

/-- The type of a method. No result is `void`. -/
structure MethodType where
  params : List FieldType
  result : Option FieldType
  deriving DecidableEq

namespace MethodType

/-- The written form of a result. -/
def resultChars : Option FieldType → List Char
  | none => ['V']
  | some t => t.chars

/-- The written form. -/
def chars (m : MethodType) : List Char :=
  '(' :: m.params.flatMap FieldType.chars ++ ')' :: resultChars m.result

/-- Reads parameters up to the closing parenthesis, and returns what follows it. -/
def readParams? (cs : List Char) : Option (List FieldType × List Char) :=
  if cs.head? = some ')' then some ([], cs.tail)
  else match _h : FieldType.read? cs with
    | none => none
    | some (t, rest) => (readParams? rest).map fun (ts, r) => (t :: ts, r)
termination_by cs.length
decreasing_by exact FieldType.length_lt_of_read? _h

/-- Reads a result that is the whole text. -/
def readResult? (cs : List Char) : Option (Option FieldType) :=
  if cs = ['V'] then some none
  else match FieldType.read? cs with
    | some (t, []) => some (some t)
    | _ => none

/-- Reads a method type that is the whole text. -/
def read? : List Char → Option MethodType
  | [] => none
  | c :: cs =>
    if c = '(' then do
      let (params, rest) ← readParams? cs
      return ⟨params, ← readResult? rest⟩
    else none

/-- The method type that a descriptor writes. -/
def ofDescriptor (d : String) : Except FormatError MethodType :=
  match read? d.toList with
  | some m => .ok m
  | none => .error (.malformedMethod d)

/-- The classes of a method type, that of the result first. -/
def classNames (m : MethodType) : List ClassName :=
  (m.result.bind FieldType.className?).toList ++ m.params.filterMap FieldType.className?

end MethodType

/-! ### Classes named by a text -/

/-- The class that `d` names as a field descriptor, through any number of array dimensions. -/
def elementClass (d : String) : Except FormatError (Option ClassName) :=
  if d.toList.getLast? = some ';' then
    match d.toList.dropWhile (· = '[') with
    | 'L' :: cs =>
      match Text.dropSuffix? [';'] cs with
      | some name =>
        if name ≠ [] ∧ ';' ∉ name then .ok (some ⟨String.ofList name⟩)
        else .error (.malformedType d)
      | none => .error (.malformedType d)
    | _ => .error (.malformedType d)
  else .ok none

end PrimaryDex
