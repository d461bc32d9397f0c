import Mathlib.Data.List.ReduceOption
import PrimaryDex.Proofs.ClassFile.References
import PrimaryDex.Proofs.Descriptor.ElementClass

namespace PrimaryDex

/-!
# Collecting the references of a class file

The references of a class file are what its constants name, one after the other, and they can be
collected exactly if each constant by itself makes sense.

* `ConstantPool.Resolves` — the entries that a constant has to reach, and the texts that have to stand
  there;
* `ConstantPool.Names` — the classes that a constant names, in order;
* `ConstantPool.exists_classesOf_iff`, `classesOf_eq_ok_iff` — both for one constant;
* `ConstantPool.FirstFault` — a constant that does not resolve, while all before it do;
* `ClassFile.referenced_iff_resolves` — both for all constants of a class file, in the order of their
  slots.
-/

/-! ### One constant -/

/-- Among the parts of a written method type, the result names its class and each parameter its own. -/
theorem MethodType.forall₂_namesType_iff {m : MethodType} {named : List (Option ClassName)} :
    List.Forall₂ NamesType (m.texts.2 :: m.texts.1) named
      ↔ m.result.bind FieldType.className? :: m.params.map FieldType.className? = named := by
  -- A result may be `void`, which names no class, like a primitive type.
  have hresult (y : Option ClassName) : NamesType (String.ofList (resultChars m.result)) y
      ↔ m.result.bind FieldType.className? = y := by
    cases m.result with
    | none =>
      have hvoid : elementClass (String.ofList (resultChars none)) = .ok none := by decide
      rw [← elementClass_eq_ok_iff, hvoid, Except.ok.injEq]
      rfl
    | some t => exact t.namesType_text_iff
  have hparams (ys : List (Option ClassName)) :
      List.Forall₂ NamesType (m.params.map FieldType.text) ys
        ↔ m.params.map FieldType.className? = ys := by
    rw [List.forall₂_map_left_iff, ← List.forall₂_eq_eq_eq, List.forall₂_map_left_iff]
    simp only [FieldType.namesType_text_iff]
  rw [List.forall₂_cons_left_iff]
  simp only [texts, hresult, hparams]
  constructor
  · rintro ⟨y, ys, rfl, rfl, rfl⟩
    rfl
  · rintro rfl
    exact ⟨_, _, rfl, rfl, rfl⟩

/-- The name of a class constant is not empty, and that of an array is sound. An array of a primitive
    type does not end in a semicolon, so it always is. -/
def IsSoundInternal (internal : String) : Prop :=
  internal ≠ "" ∧ (internal.toList.head? = some '[' → IsSoundType internal)

/-- The class that the name of a class constant stands for. -/
def NamesInternal (internal : String) (named : Option ClassName) : Prop :=
  internal ≠ "" ∧ if internal.toList.head? = some '[' then NamesType internal named
    else named = some ⟨internal⟩

/-- The name of a class constant is read as the class that it stands for. -/
theorem classOfInternal_eq_ok_iff {internal : String} {named : Option ClassName} :
    classOfInternal internal = .ok named ↔ NamesInternal internal named := by
  rw [classOfInternal, NamesInternal, ← elementClass_eq_ok_iff]
  by_cases hempty : internal = ""
  · simp [hempty]
  · have hchars : internal.toList ≠ [] := by rwa [Ne, ← String.toList_empty, String.toList_inj]
    rw [if_neg hchars]
    split <;> simp [hempty, eq_comm]

/-- It is read exactly if it is sound. -/
theorem exists_classOfInternal_iff {internal : String} :
    (∃ named, classOfInternal internal = .ok named) ↔ IsSoundInternal internal := by
  simp only [classOfInternal_eq_ok_iff, NamesInternal, IsSoundInternal, exists_and_left,
    ← exists_elementClass_iff, elementClass_eq_ok_iff]
  refine and_congr_right fun _ => ?_
  split <;> simp_all

/-- An array of a primitive type names no class. -/
example : classOfInternal "[[I" = .ok none := by decide

/-- A method type is read exactly from what has parts. -/
theorem MethodType.exists_ofDescriptor_iff {d : String} :
    (∃ m, ofDescriptor d = .ok m) ↔ ∃ params result, split d = .ok (params, result) := by
  rw [split]
  cases ofDescriptor d <;> simp [Functor.map, Except.map, texts]

/-- The classes of a method type are those of its parts, that of the result first. -/
theorem MethodType.exists_classNames_iff {d : String} {ns : List ClassName} :
    (∃ m, ofDescriptor d = .ok m ∧ m.classNames = ns)
      ↔ ∃ params result named, split d = .ok (params, result)
        ∧ List.Forall₂ NamesType (result :: params) named ∧ named.reduceOption = ns := by
  rw [split]
  cases ofDescriptor d with
  | error e => simp [Functor.map, Except.map]
  | ok m =>
    have hnames : (m.result.bind FieldType.className? ::
        m.params.map FieldType.className?).reduceOption = m.classNames := by
      cases h : m.result.bind FieldType.className? <;>
        simp [classNames, List.reduceOption, List.filterMap_map, h]
    constructor
    · rintro ⟨_, ⟨⟩, rfl⟩
      exact ⟨_, _, _, rfl, forall₂_namesType_iff.2 rfl, hnames⟩
    · rintro ⟨params, result, named, hparts, hnamed, rfl⟩
      obtain ⟨rfl, rfl⟩ := Prod.mk.inj (Except.ok.inj hparts)
      obtain rfl := forall₂_namesType_iff.1 hnamed
      exact ⟨m, rfl, hnames.symm⟩

namespace ConstantPool

variable {p : ConstantPool} {c : Constant} {ns : List ClassName}

/-- A constant that names classes reaches the entries that it needs, and what stands there makes
    sense. -/
def Resolves (p : ConstantPool) : Constant → Prop
  | .classRef name => ∃ internal, p.slots[name.toNat]? = some (some (.utf8 internal))
    ∧ IsSoundInternal internal
  | .fieldRef m => ∃ d, p.NamesMember m d ∧ IsSoundType d
  | .methodRef m | .interfaceMethodRef m =>
    ∃ d params result, p.NamesMember m d ∧ MethodType.split d = .ok (params, result)
  | _ => True

/-- The classes that a constant names: the class itself or that of the elements, the class of a field's
    type, and for a method that of its result before those of its parameters. -/
def Names (p : ConstantPool) : Constant → List ClassName → Prop
  | .classRef name, ns => ∃ internal named, p.slots[name.toNat]? = some (some (.utf8 internal))
    ∧ NamesInternal internal named ∧ named.toList = ns
  | .fieldRef m, ns => ∃ d named, p.NamesMember m d ∧ NamesType d named ∧ named.toList = ns
  | .methodRef m, ns | .interfaceMethodRef m, ns =>
    ∃ d params result named, p.NamesMember m d ∧ MethodType.split d = .ok (params, result)
      ∧ List.Forall₂ NamesType (result :: params) named ∧ named.reduceOption = ns
  | _, ns => ns = []

/-- The names of a constant are found exactly if they are those that it has. -/
theorem classesOf_eq_ok_iff : p.classesOf c = .ok ns ↔ p.Names c ns := by
  cases c with
  | classRef name =>
    simp [classesOf, Names, bind_eq_ok_iff, utf8_eq_ok_iff, classOfInternal_eq_ok_iff, pure,
      Except.pure]
  | fieldRef m =>
    simp [classesOf, Names, bind_eq_ok_iff, memberDescriptor_eq_ok_iff, elementClass_eq_ok_iff, pure,
      Except.pure]
  | methodRef m | interfaceMethodRef m =>
    simp [classesOf, Names, bind_eq_ok_iff, memberDescriptor_eq_ok_iff,
      MethodType.exists_classNames_iff, pure, Except.pure]
  | _ => simp [classesOf, Names, eq_comm]

/-- A constant has names exactly if it resolves. -/
theorem exists_classesOf_iff : (∃ ns, p.classesOf c = .ok ns) ↔ p.Resolves c := by
  cases c with
  | classRef name =>
    simp [classesOf, Resolves, bind_eq_ok_iff, utf8_eq_ok_iff, ← exists_classOfInternal_iff, pure,
      Except.pure]
  | fieldRef m =>
    simp [classesOf, Resolves, bind_eq_ok_iff, memberDescriptor_eq_ok_iff,
      ← exists_elementClass_iff, pure, Except.pure]
  | methodRef m | interfaceMethodRef m =>
    simp [classesOf, Resolves, bind_eq_ok_iff, memberDescriptor_eq_ok_iff,
      ← MethodType.exists_ofDescriptor_iff, pure, Except.pure]
  | _ => simp [classesOf, Resolves]

end ConstantPool

/-! ### All constants -/

/-- An element among the occupied places has a place, and what is placed before it is among the
    elements before it. -/
theorem exists_place_of_reduceOption_eq {α : Type} {xs : List (Option α)} {front rest : List α}
    {a : α} (h : xs.reduceOption = front ++ a :: rest) :
    ∃ i : Nat, xs[i]? = some (some a) ∧ ∀ j < i, ∀ b, xs[j]? = some (some b) → b ∈ front := by
  -- Along the places. Each one in front moves the others by one, and only an occupied one is listed.
  induction xs generalizing front with
  | nil => simp [List.reduceOption] at h
  | cons x xs ih =>
    cases x with
    | none =>
      rw [List.reduceOption_cons_of_none] at h
      obtain ⟨i, hi, hbefore⟩ := ih h
      refine ⟨i + 1, hi, fun j hj b hb => ?_⟩
      cases j with
      | zero => simp at hb
      | succ j => exact hbefore j (Nat.lt_of_succ_lt_succ hj) b hb
    | some x =>
      rw [List.reduceOption_cons_of_some] at h
      cases front with
      | nil => exact ⟨0, by rw [(List.cons.inj h).1]; rfl, by simp⟩
      | cons y front =>
        obtain ⟨rfl, htail⟩ := List.cons.inj h
        obtain ⟨i, hi, hbefore⟩ := ih htail
        refine ⟨i + 1, hi, fun j hj b hb => ?_⟩
        cases j with
        | zero => simp_all
        | succ j => exact List.mem_cons_of_mem _ (hbefore j (Nat.lt_of_succ_lt_succ hj) b hb)

namespace ConstantPool

/-- A constant that does not resolve, while all before it do. -/
structure FirstFault (p : ConstantPool) (i : Nat) (c : Constant) : Prop where
  holds : p.slots[i]? = some (some c)
  unresolved : ¬ p.Resolves c
  before : ∀ j < i, ∀ c', p.slots[j]? = some (some c') → p.Resolves c'

/-- The constants are gone through in the order of their slots. -/
theorem entries_map_snd (p : ConstantPool) :
    p.entries.map Prod.snd = p.slots.toList.reduceOption := by
  have hslots := congrArg (List.filterMap id) (List.zipIdx_map_fst 0 p.slots.toList)
  rw [List.reduceOption, ← hslots, entries, List.map_filterMap, List.filterMap_map]
  simp

theorem mapM_entries (p : ConstantPool) :
    p.entries.mapM (fun e => p.classesOf e.2) = p.slots.toList.reduceOption.mapM p.classesOf := by
  rw [← entries_map_snd, List.mapM_map]
  rfl

end ConstantPool

namespace ClassHeader

variable {h : ClassHeader}

/-- The references are the names of the constants, each where it first occurs. -/
theorem references_iff_names {ns : List ClassName} :
    h.references = .ok ns ↔ ∃ named,
      List.Forall₂ h.pool.Names h.pool.slots.toList.reduceOption named
        ∧ named.flatten.eraseDups = ns := by
  rw [references_eq_ok_iff]
  simp only [ConstantPool.mapM_entries, mapM_eq_ok_iff, ConstantPool.classesOf_eq_ok_iff,
    firstOccurrences_eq_eraseDups]

/-- There are references exactly if every constant resolves. -/
theorem exists_references_iff :
    (∃ ns, h.references = .ok ns)
      ↔ ∀ (i : Nat) c, h.pool.slots[i]? = some (some c) → h.pool.Resolves c := by
  have hmem (c : Constant) : c ∈ h.pool.slots.toList.reduceOption
      ↔ ∃ i : Nat, h.pool.slots[i]? = some (some c) := by
    rw [List.reduceOption_mem_iff, List.mem_iff_getElem?]
    simp only [Array.getElem?_toList]
  have hmapM : (∃ ns, h.references = .ok ns)
      ↔ ∃ named, h.pool.slots.toList.reduceOption.mapM h.pool.classesOf = .ok named := by
    simp [references_eq_ok_iff, ConstantPool.mapM_entries]
  rw [hmapM, exists_mapM_iff]
  simp only [ConstantPool.exists_classesOf_iff, hmem]
  exact ⟨fun hall i c hc => hall c ⟨i, hc⟩, fun hall c ⟨i, hc⟩ => hall i c hc⟩

/-- Where there are none, the first constant that does not resolve is to blame. -/
theorem exists_firstFault_of_references {cause : FormatError} (hr : h.references = .error cause) :
    ∃ i c, h.pool.FirstFault i c ∧ h.pool.classesOf c = .error cause := by
  have hmapM : h.pool.slots.toList.reduceOption.mapM h.pool.classesOf = .error cause := by
    rw [← ConstantPool.mapM_entries]
    unfold references at hr
    cases hm : h.pool.entries.mapM fun e => h.pool.classesOf e.2 <;>
      simp_all [bind, Except.bind, pure, Except.pure]
  -- The first constant in the list that has no names is also the one with the least index.
  obtain ⟨front, c, rest, hsplit, hfront, hc⟩ := exists_first_of_mapM_eq_error hmapM
  obtain ⟨i, hi, hbefore⟩ := exists_place_of_reduceOption_eq hsplit
  rw [Array.getElem?_toList] at hi
  refine ⟨i, c, ⟨hi, ?_, fun j hj c' hj' => ?_⟩, hc⟩
  · rw [← ConstantPool.exists_classesOf_iff]
    rintro ⟨ns, hns⟩
    simp [hc] at hns
  · rw [← ConstantPool.exists_classesOf_iff]
    exact hfront c' (hbefore j hj c' (by rwa [Array.getElem?_toList]))

end ClassHeader

/-- **References are what the constants name.** They can be collected exactly if each constant
    resolves. Then they are the names of the constants in the order of their slots, without
    repetitions. Otherwise the first constant that does not resolve is the fault of the class file. -/
theorem ClassFile.referenced_iff_resolves (u : ClassFile) :
    ((∃ ns, u.referenced = .ok ns)
        ↔ ∀ (i : Nat) c, u.pool.slots[i]? = some (some c) → u.pool.Resolves c)
      ∧ (∀ ns, u.referenced = .ok ns ↔ ∃ named,
        List.Forall₂ u.pool.Names u.pool.slots.toList.reduceOption named
          ∧ named.flatten.eraseDups = ns)
      ∧ ∀ fault, u.referenced = .error fault → ∃ i c cause, u.pool.FirstFault i c
        ∧ u.pool.classesOf c = .error cause ∧ fault = .badFormat u.name cause := by
  have hok (ns : List ClassName) : u.referenced = .ok ns ↔ u.references = .ok ns := by
    rw [referenced]
    split <;> simp_all
  refine ⟨?_, fun ns => ?_, fun fault hf => ?_⟩
  · simp only [hok, ClassHeader.exists_references_iff]
  · rw [hok, ClassHeader.references_iff_names]
  · rw [referenced] at hf
    split at hf
    · simp at hf
    · rename_i cause hr
      obtain ⟨i, c, hfirst, hc⟩ := ClassHeader.exists_firstFault_of_references hr
      exact ⟨i, c, cause, hfirst, hc, (Except.error.inj hf).symm⟩

/-- The constants of a class `B` with a method that takes a `C` and a `B` and returns a `D`. -/
def Sample.signatures : ConstantPool :=
  ⟨#[none, some (.utf8 "[[LA;"), some (.classRef 1), some (.utf8 "B"), some (.classRef 3),
    some (.utf8 "f"), some (.utf8 "(LC;ILB;)LD;"), some (.nameAndType 5 6), some (.methodRef ⟨4, 7⟩)]⟩

/-- The result comes before the parameters, and `B` only once. -/
theorem ClassFile.referenced_iff_resolves_signatures :
    (ClassFile.mk ⟨"B", none, [], Sample.signatures⟩ ⟨"B"⟩).referenced
        = .ok [⟨"A"⟩, ⟨"B"⟩, ⟨"D"⟩, ⟨"C"⟩]
      ∧ ∀ (i : Nat) c, Sample.signatures.slots[i]? = some (some c) → Sample.signatures.Resolves c := by
  have hnamed : Sample.signatures.slots.toList.reduceOption.mapM Sample.signatures.classesOf
      = .ok [[], [⟨"A"⟩], [], [⟨"B"⟩], [], [], [], [⟨"D"⟩, ⟨"C"⟩, ⟨"B"⟩]] := by decide +kernel
  have hok := ((referenced_iff_resolves ⟨⟨"B", none, [], Sample.signatures⟩, ⟨"B"⟩⟩).2.1
    [⟨"A"⟩, ⟨"B"⟩, ⟨"D"⟩, ⟨"C"⟩]).2 ⟨_, (mapM_eq_ok_iff.1 hnamed).imp fun _ _ =>
      ConstantPool.classesOf_eq_ok_iff.1, by decide⟩
  exact ⟨hok, (referenced_iff_resolves _).1.1 ⟨_, hok⟩⟩

end PrimaryDex
