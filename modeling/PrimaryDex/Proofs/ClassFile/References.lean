import PrimaryDex.Proofs.ClassFile.Writing

namespace PrimaryDex

/-!
# The own classes among the references

A header names its class and its ancestors by indices, and references are collected from all slots. Both
ways end at the same constants, so what the header names is among the references.

* `Decoder.Yields` — what holds of each result of a decoder;
* `ClassHeader.yields_decoder` — the names in a header come from indices of its own pool;
* `ClassHeader.classesOf_subset_references` — the references hold what the constants in the slots name;
* `ConstantPool.NamesClass.mem_references` — so a class that an index names is among them, unless it is
  an array;
* `ClassPath.own_mem_referenced` — the class itself and its ancestors, for the files of a class path.
-/

/-! ### What a decoder yields -/

namespace Decoder

variable {α β : Type} {d : Decoder α} {f : α → Decoder β} {P : α → Prop} {Q : β → Prop}

/-- Each result of the decoder has the property. -/
def Yields (d : Decoder α) (P : α → Prop) : Prop :=
  ∀ c a c', d c = .ok (a, c') → P a

/-- What holds of the first result is known to the second decoder. -/
theorem Yields.bind (hd : d.Yields P) (hf : ∀ a, P a → (f a).Yields Q) : (d >>= f).Yields Q := by
  intro c b c' h
  obtain ⟨a, c₁, h₁, h₂⟩ := exists_of_bind_eq_ok h
  exact hf a (hd c a c₁ h₁) c₁ b c' h₂

/-- Nothing has to be known of a result that is only passed on. -/
theorem Yields.behind (d : Decoder α) (hf : ∀ a, (f a).Yields Q) : (d >>= f).Yields Q :=
  .bind (P := fun _ => True) (fun _ _ _ _ => trivial) fun a _ => hf a

theorem yields_pure {a : α} (h : P a) : (pure a : Decoder α).Yields P := by
  intro c a' c' he
  obtain ⟨rfl, -⟩ := Prod.mk.inj (Except.ok.inj he)
  exact h

theorem yields_throw (e : FormatError) : (throw e : Decoder α).Yields P :=
  fun _ _ _ h => absurd h throw_ne_ok

theorem yields_lift {x : Except FormatError α} (h : ∀ a, x = .ok a → P a) :
    (liftM x : Decoder α).Yields P := by
  cases x with
  | ok a => exact yields_pure (h a rfl)
  | error e => exact yields_throw e

/-- A check refuses or leaves the results as they are. -/
theorem Yields.check {p : Prop} [Decidable p] {cause : FormatError} {d : Unit → Decoder α}
    (hd : (d ()).Yields P) : (if p then throw cause >>= d else d ()).Yields P := by
  split
  · exact .behind _ fun _ => hd
  · exact hd

theorem Yields.runOn (hd : d.Yields P) {bytes : List UInt8} {a : α} (h : d.runOn bytes = .ok a) :
    P a := by
  obtain ⟨c, hc⟩ := exists_of_runOn_eq_ok h
  exact hd _ a c hc

end Decoder

/-! ### The names in a header -/

namespace ClassHeader

open Decoder

/-- The superclass is named by the index that is read for it. -/
theorem yields_decodeSuperclass (pool : ConstantPool) :
    (decodeSuperclass pool).Yields fun superclass =>
      ∀ n ∈ superclass, ∃ index, pool.NamesAncestor index n := by
  refine .behind _ fun index => ?_
  split
  · exact yields_pure (by simp)
  · refine (yields_lift fun n hn => ancestorAt_eq_ok_iff.1 hn).bind fun n hn => yields_pure ?_
    intro m hm
    obtain rfl := Option.some.inj hm
    exact ⟨index, hn⟩

/-- Each interface is named by an index of its own. -/
theorem yields_decodeInterfaces (pool : ConstantPool) (count : Nat) {done : List ClassName}
    (hdone : ∀ n ∈ done, ∃ index, pool.NamesAncestor index n) :
    (decodeInterfaces pool done count).Yields fun interfaces =>
      ∀ n ∈ interfaces, ∃ index, pool.NamesAncestor index n := by
  induction count generalizing done with
  | zero => exact yields_pure fun n hn => hdone n (List.mem_reverse.1 hn)
  | succ count ih =>
    refine .behind _ fun index => ?_
    refine (yields_lift fun n hn => ancestorAt_eq_ok_iff.1 hn).bind fun n hn => ih ?_
    intro m hm
    rcases List.mem_cons.1 hm with rfl | hm
    · exact ⟨index, hn⟩
    · exact hdone m hm

/-- The names in a header are those that some indices of its own pool reach. -/
structure Indexed (h : ClassHeader) : Prop where
  thisClass : ∃ index, h.pool.NamesClass index h.thisClass
  superclass : ∀ n ∈ h.superclass, ∃ index, h.pool.NamesAncestor index n
  interfaces : ∀ n ∈ h.interfaces, ∃ index, h.pool.NamesAncestor index n

/-- All names in a header are named by indices. -/
theorem yields_decoder : decoder.Yields Indexed := by
  refine .behind _ fun found => .check ?_
  refine .behind _ fun minor => .behind _ fun major => .check ?_
  refine .behind _ fun pool => .behind _ fun access => .behind _ fun index => ?_
  refine (yields_lift fun n hn => ConstantPool.className_eq_ok_iff.1 hn).bind fun thisClass hthis => ?_
  refine (yields_decodeSuperclass pool).bind fun superclass hsuper => .behind _ fun count => ?_
  refine (yields_decodeInterfaces pool count.toNat (by simp)).bind fun interfaces hinterfaces => ?_
  exact yields_pure ⟨⟨index, hthis⟩, hsuper, hinterfaces⟩

end ClassHeader

/-! ### What is collected from the slots -/

section FirstOccurrences

variable {α : Type} [BEq α] [LawfulBEq α] [Hashable α]

/-- Beyond what was seen, the first occurrences are those of the others. -/
theorem firstOccurrencesBeyond_eq (seen : Std.HashSet α) (xs : List α) :
    firstOccurrencesBeyond seen xs = (xs.filter fun x => !seen.contains x).eraseDups := by
  induction xs generalizing seen with
  | nil => rfl
  | cons x xs ih =>
    -- An element that was seen is dropped now, and one that was not is dropped from the rest.
    by_cases hx : seen.contains x
    · rw [firstOccurrencesBeyond, if_pos hx, ih, List.filter_cons_of_neg (by simpa using hx)]
    · rw [firstOccurrencesBeyond, if_neg hx, ih, List.filter_cons_of_pos (by simpa using hx),
        List.eraseDups_cons, List.filter_filter]
      congr 3
      funext y
      rw [Std.HashSet.contains_insert, Bool.not_or, Bool.beq_comm]

/-- Of each name the first occurrence is kept. -/
theorem firstOccurrences_eq_eraseDups (xs : List α) : firstOccurrences xs = xs.eraseDups := by
  rw [firstOccurrences, firstOccurrencesBeyond_eq]
  congr 1
  exact List.filter_eq_self.2 fun x _ => by simp

/-- No element gets lost. -/
@[simp] theorem mem_firstOccurrences {x : α} {xs : List α} : x ∈ firstOccurrences xs ↔ x ∈ xs := by
  rw [firstOccurrences_eq_eraseDups, List.mem_eraseDups]

end FirstOccurrences

/-- A constant in a slot is listed with its index. -/
theorem ConstantPool.mem_entries {p : ConstantPool} {index : UInt16} {c : Constant}
    (h : p.slots[index.toNat]? = some (some c)) : (index, c) ∈ p.entries := by
  have hslot : (some c, index.toNat) ∈ p.slots.toList.zipIdx := by
    rw [List.mk_mem_zipIdx_iff_getElem?, Array.getElem?_toList, h]
  refine List.mem_filterMap.2 ⟨_, hslot, ?_⟩
  show some (UInt16.ofNat index.toNat, c) = some (index, c)
  rw [UInt16.ofNat_toNat]

/-- The references hold what each constant of the pool names. -/
theorem ClassHeader.classesOf_subset_references {h : ClassHeader} {ns : List ClassName}
    (hr : h.references = .ok ns) {index : UInt16} {c : Constant}
    (hc : h.pool.slots[index.toNat]? = some (some c)) :
    ∃ ms, h.pool.classesOf c = .ok ms ∧ ms ⊆ ns := by
  obtain ⟨named, hn, rfl⟩ := references_eq_ok_iff.1 hr
  obtain ⟨ms, hms, he⟩ := exists_of_mapM_eq_ok hn (ConstantPool.mem_entries hc)
  refine ⟨ms, he, fun m hm => ?_⟩
  rw [mem_firstOccurrences]
  exact List.mem_flatten_of_mem hms hm

/-- **Named by an index, named by a slot.** -/
theorem ConstantPool.NamesClass.mem_references {h : ClassHeader} {ns : List ClassName}
    (hr : h.references = .ok ns) {index : UInt16} {internal : String}
    (hn : h.pool.NamesClass index internal) (harray : internal.toList.head? ≠ some '[') :
    (⟨internal⟩ : ClassName) ∈ ns := by
  obtain ⟨name, hclass, htext⟩ := hn
  obtain ⟨ms, hms, hsub⟩ := ClassHeader.classesOf_subset_references hr hclass
  rw [classesOf, utf8_eq_ok_iff.2 htext] at hms
  by_cases hempty : internal.toList = []
  · -- A class constant with an empty name would have been refused.
    simp [classOfInternal, hempty, bind, Except.bind] at hms
  · simp only [classOfInternal, if_neg harray, if_neg hempty, bind, Except.bind, pure, Except.pure,
      Except.ok.injEq] at hms
    exact hsub (hms ▸ List.mem_singleton_self _)

/-! ### Files of a class path -/

namespace Sample

/-- All classes that the sample file names. -/
def names : List ClassName := [⟨"App"⟩, ⟨"Base"⟩, ⟨"Api"⟩]

/-- The sample file names three classes, each of them once. -/
theorem referenced_content : (ClassFile.mk header ⟨"App"⟩).referenced = .ok names := by
  have h : header.references = .ok names := by
    refine ClassHeader.references_eq_ok_iff.2
      ⟨[[⟨"App"⟩], [], [], [⟨"Base"⟩], [], [⟨"Api"⟩], []], by decide, ?_⟩
    simp [firstOccurrences, firstOccurrencesBeyond, names]
  rw [ClassFile.referenced, h]

end Sample

namespace ClassPath

/-- **A class refers to itself and to its ancestors.** If a file is accepted and its references can be
    collected, they hold its superclass and its interfaces, and the class itself, unless it gives
    itself the name of an array. -/
theorem own_mem_referenced {name : ClassName} {content : ByteArray} {u : ClassFile}
    {ns : List ClassName} (h : decodeFile name content = .ok u) (hr : u.referenced = .ok ns) :
    (∀ n ∈ u.superclass, n ∈ ns) ∧ (∀ n ∈ u.interfaces, n ∈ ns)
      ∧ (u.thisClass.toList.head? ≠ some '[' → (⟨u.thisClass⟩ : ClassName) ∈ ns) := by
  have hx : u.Indexed := ClassHeader.yields_decoder.runOn (decodeFile_eq_ok_iff.1 h).1
  have href : u.references = .ok ns := ClassFile.references_of_referenced hr
  have hancestor : ∀ n, (∃ index, u.pool.NamesAncestor index n) → n ∈ ns :=
    fun n ⟨_, hn, _, harray⟩ => hn.mem_references href harray
  obtain ⟨index, hthis⟩ := hx.thisClass
  exact ⟨fun n hn => hancestor n (hx.superclass n hn), fun n hn => hancestor n (hx.interfaces n hn),
    hthis.mem_references href⟩

/-- Of a class with a superclass and an interface. -/
theorem own_mem_referenced_content :
    decodeFile ⟨"App"⟩ Sample.content = .ok ⟨Sample.header, ⟨"App"⟩⟩
      ∧ (ClassFile.mk Sample.header ⟨"App"⟩).referenced = .ok Sample.names
      ∧ ⟨"Base"⟩ ∈ Sample.names ∧ ⟨"Api"⟩ ∈ Sample.names ∧ ⟨"App"⟩ ∈ Sample.names := by
  have hc := Sample.decodeFile_content ⟨"App"⟩
  obtain ⟨hsuper, hinterfaces, hthis⟩ := own_mem_referenced hc Sample.referenced_content
  exact ⟨hc, Sample.referenced_content, hsuper _ rfl, hinterfaces _ (List.mem_singleton_self _),
    hthis (by decide)⟩

end ClassPath

end PrimaryDex
