import PrimaryDex.ClassFile.Basic
import PrimaryDex.Proofs.Outcomes

namespace PrimaryDex

/-!
# What the indices of a class file point at

An index reaches a class name through two entries of the constant pool, and the descriptor of a member
through three.

* `ConstantPool.NamesClass`, `NamesAncestor`, `NamesMember` — the entries that have to be reached;
* `ConstantPool.className_eq_ok_iff`, `ClassHeader.ancestorAt_eq_ok_iff`,
  `ConstantPool.memberDescriptor_eq_ok_iff` — what is found is what stands there, and nothing else.
-/

namespace ConstantPool

variable {p : ConstantPool} {index : UInt16}

/-- The entry at an index is a class constant, and the one that it points at is the text `internal`. -/
def NamesClass (p : ConstantPool) (index : UInt16) (internal : String) : Prop :=
  ∃ name : UInt16, p.slots[index.toNat]? = some (some (.classRef name))
    ∧ p.slots[name.toNat]? = some (some (.utf8 internal))

/-- An index names a class or an interface, so no array. -/
def NamesAncestor (p : ConstantPool) (index : UInt16) (n : ClassName) : Prop :=
  p.NamesClass index n.internal ∧ n.internal.toList ≠ [] ∧ n.internal.toList.head? ≠ some '['

/-- The entries that a member reference has to reach: a class, and a name with this descriptor. -/
def NamesMember (p : ConstantPool) (m : MemberRef) (descriptor : String) : Prop :=
  (∃ owner, p.NamesClass m.owner owner)
    ∧ ∃ name type : UInt16, p.slots[m.nameAndType.toNat]? = some (some (.nameAndType name type))
      ∧ (∃ text, p.slots[name.toNat]? = some (some (.utf8 text)))
      ∧ p.slots[type.toNat]? = some (some (.utf8 descriptor))

/-- An index gives what stands in its slot. -/
theorem get_eq_ok_iff {c : Constant} :
    p.get index = .ok c ↔ p.slots[index.toNat]? = some (some c) := by
  unfold get
  split
  · rename_i h
    simp [h]
  · rename_i h
    simpa using h c

/-- A text is found exactly where a text constant stands. -/
theorem utf8_eq_ok_iff {text : String} :
    p.utf8 index = .ok text ↔ p.slots[index.toNat]? = some (some (.utf8 text)) := by
  rw [← get_eq_ok_iff, utf8]
  cases hg : p.get index with
  | error e => simp [bind, Except.bind]
  | ok c => cases c <;> simp [bind, Except.bind, pure, Except.pure, throw, throwThe, MonadExceptOf.throw]

/-- The name of a class is found exactly where an index reaches it. -/
theorem className_eq_ok_iff {internal : String} :
    p.className index = .ok internal ↔ p.NamesClass index internal := by
  have hclass (name : UInt16) :
      p.slots[index.toNat]? = some (some (.classRef name)) ↔ p.get index = .ok (.classRef name) :=
    get_eq_ok_iff.symm
  simp only [NamesClass, hclass, ← utf8_eq_ok_iff]
  rw [className]
  cases hg : p.get index with
  | error e => simp [bind, Except.bind]
  | ok c => cases c <;> simp [bind, Except.bind, throw, throwThe, MonadExceptOf.throw]

/-- A descriptor is found behind a name and type whose name is a text as well. -/
theorem exists_nameAndType_iff {descriptor : String} :
    (∃ text, p.nameAndType index = .ok (text, descriptor))
      ↔ ∃ name type : UInt16, p.slots[index.toNat]? = some (some (.nameAndType name type))
        ∧ (∃ text, p.slots[name.toNat]? = some (some (.utf8 text)))
        ∧ p.slots[type.toNat]? = some (some (.utf8 descriptor)) := by
  have hpair (name type : UInt16) : p.slots[index.toNat]? = some (some (.nameAndType name type))
      ↔ p.get index = .ok (.nameAndType name type) := get_eq_ok_iff.symm
  simp only [hpair, ← utf8_eq_ok_iff]
  rw [nameAndType]
  -- No other constant has a name and a type.
  cases hg : p.get index with
  | error e => simp [bind, Except.bind]
  | ok c =>
    cases c with
    | nameAndType name type =>
      cases hname : p.utf8 name <;> cases htype : p.utf8 type <;>
        simp [bind, Except.bind, pure, Except.pure, and_assoc, hname, htype]
    | _ => simp [bind, Except.bind, throw, throwThe, MonadExceptOf.throw]

/-- The descriptor of a member is found exactly if all its entries are reached. -/
theorem memberDescriptor_eq_ok_iff {m : MemberRef} {descriptor : String} :
    p.memberDescriptor m = .ok descriptor ↔ p.NamesMember m descriptor := by
  rw [memberDescriptor, bind_eq_ok_iff]
  simp only [bind_eq_ok_iff, NamesMember, ← className_eq_ok_iff, ← exists_nameAndType_iff]
  simp [pure, Except.pure]

end ConstantPool

/-- An ancestor is found exactly where a class is named that is no array. -/
theorem ClassHeader.ancestorAt_eq_ok_iff {p : ConstantPool} {index : UInt16} {n : ClassName} :
    ancestorAt p index = .ok n ↔ p.NamesAncestor index n := by
  simp only [ConstantPool.NamesAncestor, ← ConstantPool.className_eq_ok_iff]
  rw [ancestorAt]
  cases hc : p.className index with
  | error e => simp [bind, Except.bind]
  | ok internal =>
    -- Names that are empty or those of arrays are found and refused.
    by_cases h : internal.toList = [] ∨ internal.toList.head? = some '['
    · simp only [bind, Except.bind, if_pos h, Except.ok.injEq]
      constructor
      · rintro ⟨⟩
      · rintro ⟨rfl, hempty, harray⟩
        exact absurd h (not_or.2 ⟨hempty, harray⟩)
    · simp only [bind, Except.bind, if_neg h, pure, Except.pure, Except.ok.injEq]
      rw [not_or] at h
      constructor
      · rintro rfl
        exact ⟨rfl, h⟩
      · rintro ⟨rfl, -⟩
        rfl

end PrimaryDex
