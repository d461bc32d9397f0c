import PrimaryDex.ClassFile.Basic
import PrimaryDex.Descriptor
import Std.Data.HashSet.Lemmas

namespace PrimaryDex

/-!
# The classes that a class file refers to

* `ConstantPool.classesOf` — the classes that one constant names;
* `firstOccurrences` — a list without its repetitions;
* `ClassHeader.references` — the classes that a class file names, in the order of its constant pool;
* `ClassHeader.mentions` — these and the ancestors.
-/

/-- The elements of `xs` that are not in `seen`, each where it first occurs. -/
def firstOccurrencesBeyond {α : Type} [BEq α] [Hashable α] (seen : Std.HashSet α) :
    List α → List α
  | [] => []
  | x :: xs =>
    if seen.contains x then firstOccurrencesBeyond seen xs
    else x :: firstOccurrencesBeyond (seen.insert x) xs

/-- The elements of a list, each where it first occurs. -/
def firstOccurrences {α : Type} [BEq α] [Hashable α] (xs : List α) : List α :=
  firstOccurrencesBeyond ∅ xs

/-- The class that a class constant with the given internal name stands for. The name of an array
    class is a descriptor. -/
def classOfInternal (internal : String) : Except FormatError (Option ClassName) :=
  if internal.toList.head? = some '[' then elementClass internal
  else if internal.toList = [] then .error .emptyClassName
  else .ok (some ⟨internal⟩)

/-- The classes that a constant names: a class itself, the type of a field, and for a method its
    result and its parameters. -/
def ConstantPool.classesOf (p : ConstantPool) : Constant → Except FormatError (List ClassName)
  | .classRef name => do return (← classOfInternal (← p.utf8 name)).toList
  | .fieldRef m => do return (← elementClass (← p.memberDescriptor m)).toList
  | .methodRef m | .interfaceMethodRef m => do
    return (← MethodType.ofDescriptor (← p.memberDescriptor m)).classNames
  | _ => .ok []

/-- The classes that the constants of a class file name, each where it is first named. -/
def ClassHeader.references (h : ClassHeader) : Except FormatError (List ClassName) := do
  let named ← h.pool.entries.mapM fun (_, constant) => h.pool.classesOf constant
  return firstOccurrences named.flatten

/-- A class file has references if all its constants are read, and these are the classes that they
    name, without repetitions. -/
theorem ClassHeader.references_eq_ok_iff {h : ClassHeader} {ns : List ClassName} :
    h.references = .ok ns ↔ ∃ named,
      h.pool.entries.mapM (fun e => h.pool.classesOf e.2) = .ok named
        ∧ firstOccurrences named.flatten = ns := by
  show ((h.pool.entries.mapM fun e => h.pool.classesOf e.2) >>= fun named =>
    Except.ok (firstOccurrences named.flatten)) = .ok ns ↔ _
  cases h.pool.entries.mapM fun e => h.pool.classesOf e.2 <;> simp [bind, Except.bind]

/-- All classes that a class file names, whether as ancestors or in its constants. -/
def ClassHeader.mentions (h : ClassHeader) : List ClassName :=
  h.ancestors ++ (h.references.toOption.getD [])

/-- A class file mentions its ancestors. -/
theorem ClassHeader.ancestors_subset_mentions (h : ClassHeader) : h.ancestors ⊆ h.mentions :=
  List.subset_append_left _ _

/-- Besides its ancestors a class file mentions the classes that it refers to. -/
theorem ClassHeader.mentions_eq {h : ClassHeader} {ns : List ClassName}
    (hr : h.references = .ok ns) : h.mentions = h.ancestors ++ ns := by
  simp only [mentions, hr, Except.toOption, Option.getD_some]

/-- A class file mentions the classes that it refers to. -/
theorem ClassHeader.references_subset_mentions {h : ClassHeader} {ns : List ClassName}
    (hr : h.references = .ok ns) : ns ⊆ h.mentions := by
  rw [mentions_eq hr]
  exact List.subset_append_right _ _

end PrimaryDex
