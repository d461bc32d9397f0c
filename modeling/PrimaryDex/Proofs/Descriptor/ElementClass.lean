import PrimaryDex.Proofs.Descriptor.Slicing

namespace PrimaryDex

open Text

/-!
# The class that a descriptor names

The class of a descriptor is found from both ends of the text, its type from the front. Both draw the
line at the same place.

* `Encloses` — a text is a name between dimensions, an `L` and a final semicolon;
* `IsSoundType`, `NamesType` — which texts are not refused, and which class they name;
* `exists_elementClass_iff`, `elementClass_eq_ok_iff` — both hold of what `elementClass` returns;
* `FieldType.exists_read?_iff`, `span?_eq_byteLength_iff` — the field type in front of a text is all of
  it exactly if the grammar describes the text, and then it has as many bytes;
* `elementClass_iff_span?` — so a text that ends in a semicolon is refused exactly if it is no field
  type, and no part of a method descriptor is refused.
-/

/-- A text is some dimensions, an `L`, the name `x` and a semicolon. -/
def Encloses (d x : String) : Prop :=
  ∃ dims, d.toList = List.replicate dims '[' ++ 'L' :: (x.toList ++ [';'])

/-- A text that ends in a semicolon encloses a name, which is not empty and goes up to that semicolon.
    Nothing is asked of other texts. -/
def IsSoundType (d : String) : Prop :=
  d.toList.getLast? = some ';' → ∃ x, Encloses d x ∧ x ≠ "" ∧ ';' ∉ x.toList

/-- The class that a text names as a type. One that does not end in a semicolon names none. -/
def NamesType (d : String) (named : Option ClassName) : Prop :=
  d.toList.getLast? ≠ some ';' ∧ named = none
    ∨ ∃ x, Encloses d x ∧ x ≠ "" ∧ ';' ∉ x.toList ∧ named = some ⟨x⟩

/-- A text writes a primitive type or an array of such a type. -/
def IsPrimitiveDescriptor (d : String) : Prop :=
  ∃ (dims : Nat), ∃ c ∈ baseLetters, d.toList = List.replicate dims '[' ++ [c]

/-! ### Dimensions -/

/-- Behind the dimensions stands what is no dimension. -/
theorem dropWhile_dims {c : Char} (hc : c ≠ '[') (dims : Nat) (t : List Char) :
    (List.replicate dims '[' ++ c :: t).dropWhile (· = '[') = c :: t := by
  rw [List.dropWhile_append_of_pos fun b hb => by simpa using List.eq_of_mem_replicate hb,
    List.dropWhile_cons_of_neg (by simpa using hc)]

/-- A text starts with some dimensions. -/
theorem takeWhile_dims (t : List Char) :
    ∃ dims, t.takeWhile (· = '[') = List.replicate dims '[' :=
  ⟨_, List.eq_replicate_of_mem fun b hb => by simpa using List.mem_takeWhile_imp hb⟩

/-- The name is what stands behind the first character that is no dimension. -/
theorem Encloses.unique {d x y : String} (hx : Encloses d x) (hy : Encloses d y) : x = y := by
  obtain ⟨m, hm⟩ := hx
  obtain ⟨n, hn⟩ := hy
  have h : 'L' :: (x.toList ++ [';']) = 'L' :: (y.toList ++ [';']) := by
    rw [← dropWhile_dims (by decide) m, ← hm, hn, dropWhile_dims (by decide) n]
  exact String.toList_inj.1 (List.append_cancel_right (List.cons.inj h).2)

/-- A text that encloses a name ends in a semicolon. -/
theorem Encloses.getLast? {d x : String} (h : Encloses d x) : d.toList.getLast? = some ';' := by
  obtain ⟨dims, hd⟩ := h
  rw [hd, ← List.cons_append, ← List.append_assoc, List.getLast?_concat]

/-- A primitive type or an array of one does not. -/
theorem IsPrimitiveDescriptor.getLast?_ne {d : String} (h : IsPrimitiveDescriptor d) :
    d.toList.getLast? ≠ some ';' := by
  obtain ⟨dims, c, hc, hd⟩ := h
  rw [hd, List.getLast?_concat]
  rintro ⟨rfl⟩
  revert hc
  decide

/-! ### From both ends -/

/-- An enclosed name is the class, unless it is empty or goes on behind a semicolon. -/
theorem elementClass_of_encloses {d x : String} (h : Encloses d x) :
    elementClass d
      = if x ≠ "" ∧ ';' ∉ x.toList then .ok (some ⟨x⟩) else .error (.malformedType d) := by
  have hlast := h.getLast?
  obtain ⟨dims, hd⟩ := h
  have hdrop : d.toList.dropWhile (· = '[') = 'L' :: (x.toList ++ [';']) := by
    rw [hd, dropWhile_dims (by decide)]
  have hempty : x.toList ≠ [] ↔ x ≠ "" := by
    rw [Ne, Ne, ← String.toList_inj, String.toList_empty]
  rw [elementClass, if_pos hlast]
  simp only [hdrop, dropSuffix?_append, hempty, String.ofList_toList]

/-- A text that ends in a semicolon is refused if it does not enclose anything. -/
theorem encloses_of_elementClass {d : String} {named : Option ClassName}
    (hlast : d.toList.getLast? = some ';') (h : elementClass d = .ok named) : ∃ x, Encloses d x := by
  rw [elementClass, if_pos hlast] at h
  split at h
  · rename_i cs hdrop
    split at h
    · rename_i name hname
      obtain ⟨dims, hdims⟩ := takeWhile_dims d.toList
      refine ⟨String.ofList name, dims, ?_⟩
      rw [String.toList_ofList, ← dropSuffix?_eq_some_iff.1 hname, ← hdrop, ← hdims,
        List.takeWhile_append_dropWhile]
    · simp at h
  · simp at h

/-- The class of a text is the one that it names as a type. -/
theorem elementClass_eq_ok_iff {d : String} {named : Option ClassName} :
    elementClass d = .ok named ↔ NamesType d named := by
  by_cases hlast : d.toList.getLast? = some ';'
  · constructor
    · intro h
      obtain ⟨x, hx⟩ := encloses_of_elementClass hlast h
      rw [elementClass_of_encloses hx] at h
      split at h
      · rename_i hname
        exact .inr ⟨x, hx, hname.1, hname.2, (Except.ok.inj h).symm⟩
      · simp at h
    · rintro (⟨hne, -⟩ | ⟨x, hx, hempty, hsemi, rfl⟩)
      · exact absurd hlast hne
      · rw [elementClass_of_encloses hx, if_pos ⟨hempty, hsemi⟩]
  · rw [elementClass, if_neg hlast]
    constructor
    · intro h
      exact .inl ⟨hlast, (Except.ok.inj h).symm⟩
    · rintro (⟨-, rfl⟩ | ⟨x, hx, -⟩)
      · rfl
      · exact absurd hx.getLast? hlast

/-- A text is refused exactly if it is not sound. -/
theorem exists_elementClass_iff {d : String} :
    (∃ named, elementClass d = .ok named) ↔ IsSoundType d := by
  constructor
  · rintro ⟨named, h⟩ hlast
    rcases elementClass_eq_ok_iff.1 h with ⟨hne, -⟩ | ⟨x, hx, hempty, hsemi, -⟩
    · exact absurd hlast hne
    · exact ⟨x, hx, hempty, hsemi⟩
  · intro h
    by_cases hlast : d.toList.getLast? = some ';'
    · obtain ⟨x, hx, hempty, hsemi⟩ := h hlast
      exact ⟨_, elementClass_eq_ok_iff.2 (.inr ⟨x, hx, hempty, hsemi, rfl⟩)⟩
    · exact ⟨none, elementClass_eq_ok_iff.2 (.inl ⟨hlast, rfl⟩)⟩

/-! ### Written types -/

/-- A further dimension does not change what is named. -/
theorem NamesType.cons_dim {cs : List Char} {named : Option ClassName} (hne : cs ≠ [])
    (h : NamesType (String.ofList cs) named) : NamesType (String.ofList ('[' :: cs)) named := by
  rcases h with ⟨hlast, hnamed⟩ | ⟨x, ⟨dims, hd⟩, hname⟩
  · refine .inl ⟨?_, hnamed⟩
    rw [String.toList_ofList] at hlast ⊢
    rwa [List.getLast?_cons_of_ne_nil hne]
  · refine .inr ⟨x, ⟨dims + 1, ?_⟩, hname⟩
    rw [String.toList_ofList] at hd ⊢
    rw [hd, List.replicate_succ, List.cons_append]

/-- A written type names its class. -/
theorem FieldType.namesType_text (t : FieldType) : NamesType t.text t.className? := by
  induction t with
  | base b => exact .inl ⟨by cases b <;> decide, rfl⟩
  | object n =>
    refine .inr ⟨String.ofList n.chars, ⟨0, ?_⟩, ?_, ?_, rfl⟩
    · simp [text, chars]
    · rw [Ne, ← String.toList_inj, String.toList_ofList]
      exact n.ne_nil
    · rw [String.toList_ofList]
      exact n.no_semicolon
  | array t ih => exact ih.cons_dim t.chars_ne_nil

theorem FieldType.namesType_text_iff {t : FieldType} {named : Option ClassName} :
    NamesType t.text named ↔ t.className? = named := by
  rw [← elementClass_eq_ok_iff, elementClass_eq_ok_iff.2 t.namesType_text, Except.ok.injEq]

/-! ### From the front -/

/-- A text is read as a field type to its end exactly if the grammar describes it. -/
theorem FieldType.exists_read?_iff {d : String} :
    (∃ t, read? d.toList = some (t, [])) ↔ IsFieldDescriptor d := by
  simp only [isFieldDescriptor_iff, read?_eq_some_iff, List.append_nil, text]
  refine exists_congr fun t => ?_
  rw [← String.toList_inj, String.toList_ofList, eq_comm]

/-- The field type in front of a text has as many bytes exactly if it is all of the text. -/
theorem FieldType.span?_eq_byteLength_iff {d : String} :
    span? d.toList = some (some d.utf8ByteSize) ↔ ∃ t, read? d.toList = some (t, []) := by
  rw [span?_eq, ← byteLength_toList, Option.some.injEq, Option.map_eq_some_iff]
  constructor
  · rintro ⟨⟨t, rest⟩, hread, hlength⟩
    -- Nothing is left for what stands behind the field type.
    have hrest : rest = [] := by
      by_contra hne
      have hpos := byteLength_pos hne
      rw [eq_chars_append_of_read? hread, byteLength_append] at hlength
      simp only at hlength
      omega
    exact ⟨t, hrest ▸ hread⟩
  · rintro ⟨t, hread⟩
    have hd := eq_chars_append_of_read? hread
    rw [List.append_nil] at hd
    exact ⟨(t, []), hread, congrArg byteLength hd.symm⟩

/-- A field type is a primitive one, or it encloses a name. -/
theorem isFieldDescriptor_iff_encloses {d : String} :
    IsFieldDescriptor d
      ↔ IsPrimitiveDescriptor d ∨ ∃ x, Encloses d x ∧ x ≠ "" ∧ ';' ∉ x.toList := by
  constructor
  · rintro ⟨dims, element, hd, ⟨c, hc, rfl⟩ | ⟨name, rfl, hne, hsemi⟩⟩
    · exact .inl ⟨dims, c, hc, hd⟩
    · refine .inr ⟨String.ofList name, ⟨dims, ?_⟩, ?_, ?_⟩
      · rw [String.toList_ofList, hd]
      · rwa [Ne, ← String.toList_inj, String.toList_ofList, String.toList_empty]
      · rwa [String.toList_ofList]
  · rintro (⟨dims, c, hc, hd⟩ | ⟨x, ⟨dims, hd⟩, hne, hsemi⟩)
    · exact ⟨dims, [c], hd, .inl ⟨c, hc, rfl⟩⟩
    · refine ⟨dims, _, hd, .inr ⟨x.toList, rfl, ?_, hsemi⟩⟩
      rwa [Ne, ← String.toList_empty, String.toList_inj]

/-- What a field type names, if anything. -/
theorem elementClass_of_isFieldDescriptor {d : String} (h : IsFieldDescriptor d) :
    ∃ named, elementClass d = .ok named ∧ (named = none ↔ IsPrimitiveDescriptor d) := by
  rcases isFieldDescriptor_iff_encloses.1 h with hprim | ⟨x, hx, hempty, hsemi⟩
  · exact ⟨none, elementClass_eq_ok_iff.2 (.inl ⟨hprim.getLast?_ne, rfl⟩), by simp [hprim]⟩
  · refine ⟨some ⟨x⟩, elementClass_eq_ok_iff.2 (.inr ⟨x, hx, hempty, hsemi, rfl⟩), ?_⟩
    have hnot : ¬ IsPrimitiveDescriptor d := fun hprim => hprim.getLast?_ne hx.getLast?
    simp [hnot]

/-- **One line for both.** A text that ends in a semicolon names a class exactly if the field type in
    front of it is all of it, by its bytes as well as by what is left, and the class is that of the one
    name that the text encloses. So no parameter and no result of a method descriptor is refused, and
    just the primitive types, arrays of them and `void` name no class. -/
theorem elementClass_iff_span? (d : String) :
    (d.toList.getLast? = some ';' →
      ((∃ named, elementClass d = .ok named)
          ↔ FieldType.span? d.toList = some (some d.utf8ByteSize))
        ∧ (FieldType.span? d.toList = some (some d.utf8ByteSize)
          ↔ ∃ t, FieldType.read? d.toList = some (t, []))
        ∧ ∀ named, elementClass d = .ok named →
          ∃ x, Encloses d x ∧ (∀ y, Encloses d y → y = x) ∧ named = some ⟨x⟩)
      ∧ ∀ params result, MethodType.split d = .ok (params, result) → ∀ p ∈ result :: params,
        ∃ named, elementClass p = .ok named
          ∧ (named = none ↔ p = "V" ∨ IsPrimitiveDescriptor p) := by
  refine ⟨fun hlast => ⟨?_, FieldType.span?_eq_byteLength_iff, ?_⟩, ?_⟩
  · rw [FieldType.span?_eq_byteLength_iff, FieldType.exists_read?_iff,
      isFieldDescriptor_iff_encloses, exists_elementClass_iff]
    constructor
    · intro h
      exact .inr (h hlast)
    · rintro (hprim | henclosed) -
      · exact absurd hlast hprim.getLast?_ne
      · exact henclosed
  · intro named h
    rcases elementClass_eq_ok_iff.1 h with ⟨hne, -⟩ | ⟨x, hx, -, -, hnamed⟩
    · exact absurd hlast hne
    · exact ⟨x, hx, fun y hy => hy.unique hx, hnamed⟩
  · intro params result hsplit p hp
    -- A part is `V` or a field type, since the descriptor is put together by the grammar.
    have hform := MethodType.split_eq_ok_iff.1 hsplit
    have hpart : p = "V" ∨ IsFieldDescriptor p := by
      rcases List.mem_cons.1 hp with rfl | hp
      · exact hform.result
      · exact .inr (hform.params p hp)
    rcases hpart with rfl | hfield
    · exact ⟨none, by decide, by simp⟩
    · obtain ⟨named, hnamed, hprim⟩ := elementClass_of_isFieldDescriptor hfield
      have hvoid : p ≠ "V" := by
        rintro rfl
        revert hfield
        rw [← FieldType.exists_read?_iff, ← FieldType.span?_eq_byteLength_iff]
        decide
      exact ⟨named, hnamed, by simp [hprim, hvoid]⟩

/-- Of an array of a class with a bracket in its name, and of that array among parameters. -/
theorem elementClass_iff_span?_bracketed :
    (elementClass "[[Lé[;" = .ok (some ⟨"é["⟩) ∧ FieldType.span? "[[Lé[;".toList = some (some 7))
      ∧ ∀ p ∈ ["La)b;", "La);", "[I", "[[Lé[;"], ∃ named, elementClass p = .ok named
          ∧ (named = none ↔ p = "V" ∨ IsPrimitiveDescriptor p) := by
  have hclass : elementClass "[[Lé[;" = .ok (some ⟨"é["⟩) := by decide
  have hsplit := MethodType.split_eq_ok_iff.2 MethodType.isMethodDescriptor_bracketed
  exact ⟨⟨hclass, ((elementClass_iff_span? _).1 (by decide)).1.1 ⟨_, hclass⟩⟩,
    (elementClass_iff_span? "(La);[I[[Lé[;)La)b;").2 _ _ hsplit⟩

end PrimaryDex
