import Mathlib.Data.Set.List
import PrimaryDex.Descriptor

namespace PrimaryDex

/-!
# The grammar of descriptors

The grammar is said in terms of texts alone, and reading accepts what it describes.

* `IsFieldDescriptor`, `IsMethodDescriptor` — the texts that write a type, and how a text that writes
  a method type is cut into parameters and a result;
* `FieldType.read?_eq_some_iff`, `MethodType.readParams?_eq_some_iff`, `MethodType.read?_eq_some_iff` —
  each reader accepts the written forms and no other text, whatever stands behind a field type;
* `MethodType.split` — the texts of the parameters and of the result;
* `MethodType.split_eq_ok_iff` — they are found exactly if the grammar has them, which settles that a
  text is cut in one way only.
-/

/-! ### The grammar -/

/-- The letters of the primitive types. -/
def baseLetters : List Char := ['B', 'C', 'D', 'F', 'I', 'J', 'S', 'Z']

/-- A text writes a field type: any number of dimensions, and behind them the letter of a primitive
    type, or a class name between an `L` and a semicolon. -/
def IsFieldDescriptor (d : String) : Prop :=
  ∃ (dims : Nat) (element : List Char), d.toList = List.replicate dims '[' ++ element
    ∧ ((∃ c ∈ baseLetters, element = [c])
      ∨ ∃ name, element = 'L' :: (name ++ [';']) ∧ name ≠ [] ∧ ';' ∉ name)

/-- A text writes a method type with these parameters and this result. -/
structure IsMethodDescriptor (d : String) (params : List String) (result : String) : Prop where
  written : d = "(" ++ String.join params ++ ")" ++ result
  params : ∀ p ∈ params, IsFieldDescriptor p
  result : result = "V" ∨ IsFieldDescriptor result

/-! ### Field types -/

namespace BaseType

/-- No primitive type has the letter of a dimension, of a class or of the end of the parameters. -/
theorem letter_ne (b : BaseType) : b.letter ≠ '[' ∧ b.letter ≠ 'L' ∧ b.letter ≠ ')' := by
  cases b <;> decide

/-- A primitive type is read from its own letter. -/
theorem letter_of_ofLetter? {c : Char} {b : BaseType} (h : ofLetter? c = some b) :
    b.letter = c := by
  simpa using List.find?_some h

/-- The letters are those of the primitive types. -/
theorem mem_baseLetters_iff {c : Char} : c ∈ baseLetters ↔ ∃ b : BaseType, b.letter = c := by
  constructor
  · intro h
    have hall : baseLetters.all (fun c => (ofLetter? c).isSome) = true := by decide
    obtain ⟨b, hb⟩ := Option.isSome_iff_exists.1 (List.all_eq_true.1 hall c h)
    exact ⟨b, letter_of_ofLetter? hb⟩
  · rintro ⟨b, rfl⟩
    cases b <;> decide

end BaseType

namespace FieldType

theorem chars_ne_nil (t : FieldType) : t.chars ≠ [] := by
  cases t <;> simp [chars]

/-- The written form as a text. -/
def text (t : FieldType) : String := String.ofList t.chars

/-- A name ends at its semicolon. -/
theorem takeWhile_name (n : ObjectName) (rest : List Char) :
    (n.chars ++ ';' :: rest).takeWhile (· ≠ ';') = n.chars := by
  rw [List.takeWhile_append_of_pos fun c hc => by
    simpa using fun h : c = ';' => n.no_semicolon (h ▸ hc)]
  simp

/-- Behind a name stands its semicolon. -/
theorem dropWhile_name (n : ObjectName) (rest : List Char) :
    (n.chars ++ ';' :: rest).dropWhile (· ≠ ';') = ';' :: rest := by
  rw [List.dropWhile_append_of_pos fun c hc => by
    simpa using fun h : c = ';' => n.no_semicolon (h ▸ hc)]
  simp

/-- A name is read up to its semicolon. -/
theorem readObject?_append (n : ObjectName) (rest : List Char) :
    readObject? (n.chars ++ ';' :: rest) = some (.object n, rest) := by
  simp only [readObject?, dropWhile_name, takeWhile_name, dif_neg n.ne_nil]

/-- What is read as a class was a name and a semicolon. -/
theorem eq_of_readObject? {cs rest : List Char} {t : FieldType}
    (h : readObject? cs = some (t, rest)) :
    ∃ n, t = .object n ∧ cs = n.chars ++ ';' :: rest := by
  have hcs := List.takeWhile_append_dropWhile (p := fun c => decide (c ≠ ';')) (l := cs)
  simp only [readObject?] at h
  split at h
  · simp at h
  · rename_i c r hd
    split at h
    · simp at h
    · -- What stops the name is a semicolon.
      have hc : c = ';' := by
        have hhead := List.head?_dropWhile_not (fun c => decide (c ≠ ';')) cs
        rw [hd] at hhead
        simpa using hhead
      obtain ⟨rfl, rfl⟩ := Prod.mk.inj (Option.some.inj h)
      refine ⟨_, rfl, ?_⟩
      rw [hd, hc] at hcs
      exact hcs.symm

/-- **Written, then read.** A written field type is read, whatever stands behind it. -/
theorem read?_chars_append (t : FieldType) (rest : List Char) :
    read? (t.chars ++ rest) = some (t, rest) := by
  induction t with
  | base b =>
    obtain ⟨hdim, hobject, -⟩ := b.letter_ne
    simp [chars, read?, hdim, hobject, BaseType.ofLetter?_letter]
  | object n =>
    simp [chars, read?, readObject?_append]
  | array t ih =>
    simp [chars, read?, ih]

/-- **Read, thus written.** What is read off the front of a text stands there. -/
theorem eq_chars_append_of_read? {cs rest : List Char} {t : FieldType}
    (h : read? cs = some (t, rest)) : cs = t.chars ++ rest := by
  induction cs generalizing t with
  | nil => simp [read?] at h
  | cons c cs ih =>
    simp only [read?] at h
    -- The first character tells which kind of type was read.
    split at h
    · rename_i hc
      obtain ⟨⟨u, r⟩, hu, hr⟩ := Option.map_eq_some_iff.1 h
      obtain ⟨rfl, rfl⟩ := Prod.mk.inj hr
      rw [hc, ih hu]
      rfl
    · split at h
      · rename_i hc
        obtain ⟨n, rfl, rfl⟩ := eq_of_readObject? h
        simp [chars, hc]
      · obtain ⟨b, hb, hr⟩ := Option.map_eq_some_iff.1 h
        obtain ⟨rfl, rfl⟩ := Prod.mk.inj hr
        rw [chars, BaseType.letter_of_ofLetter? hb]
        rfl

/-- A field type is read off a text exactly if it is written in front of it. -/
theorem read?_eq_some_iff {cs rest : List Char} {t : FieldType} :
    read? cs = some (t, rest) ↔ cs = t.chars ++ rest := by
  constructor
  · exact eq_chars_append_of_read?
  · rintro rfl
    exact read?_chars_append t rest

/-- A dimension in front of a field type is one of it. -/
theorem chars_dims (dims : Nat) (t : FieldType) :
    (Nat.repeat array dims t).chars = List.replicate dims '[' ++ t.chars := by
  induction dims with
  | zero => rfl
  | succ dims ih => rw [Nat.repeat, chars, ih, List.replicate_succ, List.cons_append]

/-- Every field type is a primitive type or a class, under some dimensions. -/
theorem exists_element (t : FieldType) :
    ∃ dims u, t = Nat.repeat array dims u ∧ ((∃ b, u = .base b) ∨ ∃ n, u = .object n) := by
  induction t with
  | base b => exact ⟨0, _, rfl, .inl ⟨b, rfl⟩⟩
  | object n => exact ⟨0, _, rfl, .inr ⟨n, rfl⟩⟩
  | array t ih =>
    obtain ⟨dims, u, rfl, hu⟩ := ih
    exact ⟨dims + 1, u, rfl, hu⟩

/-- The grammar describes the written forms of field types. -/
theorem isFieldDescriptor_iff {d : String} : IsFieldDescriptor d ↔ ∃ t : FieldType, t.text = d := by
  constructor
  · rintro ⟨dims, element, hd, ⟨c, hc, rfl⟩ | ⟨name, rfl, hne, hname⟩⟩
    · obtain ⟨b, rfl⟩ := BaseType.mem_baseLetters_iff.1 hc
      refine ⟨Nat.repeat array dims (.base b), ?_⟩
      rw [text, chars_dims, ← String.toList_inj, String.toList_ofList, hd]
      rfl
    · refine ⟨Nat.repeat array dims (.object ⟨name, hne, hname⟩), ?_⟩
      rw [text, chars_dims, ← String.toList_inj, String.toList_ofList, hd]
      rfl
  · rintro ⟨t, rfl⟩
    obtain ⟨dims, u, rfl, hu⟩ := exists_element t
    refine ⟨dims, u.chars, ?_, ?_⟩
    · rw [text, String.toList_ofList, chars_dims]
    · rcases hu with ⟨b, rfl⟩ | ⟨n, rfl⟩
      · exact .inl ⟨b.letter, BaseType.mem_baseLetters_iff.2 ⟨b, rfl⟩, rfl⟩
      · exact .inr ⟨n.chars, rfl, n.ne_nil, n.no_semicolon⟩

end FieldType

/-! ### Method types -/

namespace MethodType

/-- A field type never starts with a closing parenthesis, so the first one that stands where a
    parameter could start ends the parameters. -/
theorem head?_chars_append (t : FieldType) (rest : List Char) :
    (t.chars ++ rest).head? ≠ some ')' := by
  cases t with
  | base b => simpa [FieldType.chars] using b.letter_ne.2.2
  | object n => simp [FieldType.chars]
  | array t => simp [FieldType.chars]

/-- Where no field type can be read, there are no parameters. -/
theorem readParams?_of_read?_eq_none {cs : List Char} (hhead : cs.head? ≠ some ')')
    (h : FieldType.read? cs = none) : readParams? cs = none := by
  rw [readParams?, if_neg hhead]
  split
  · rfl
  · rename_i hsome
    rw [h] at hsome
    simp at hsome

/-- One parameter is read, and then the others. -/
theorem readParams?_of_read? {cs rest : List Char} {t : FieldType} (hhead : cs.head? ≠ some ')')
    (h : FieldType.read? cs = some (t, rest)) :
    readParams? cs = (readParams? rest).map fun (ts, r) => (t :: ts, r) := by
  rw [readParams?, if_neg hhead]
  split
  · rename_i hnone
    rw [h] at hnone
    simp at hnone
  · rename_i hsome
    rw [h] at hsome
    obtain ⟨rfl, rfl⟩ := Prod.mk.inj (Option.some.inj hsome)
    rfl

/-- Written parameters are read up to the parenthesis that ends them. -/
theorem readParams?_flatMap_append (ts : List FieldType) (rest : List Char) :
    readParams? (ts.flatMap FieldType.chars ++ ')' :: rest) = some (ts, rest) := by
  induction ts with
  | nil => simp [readParams?]
  | cons t ts ih =>
    rw [List.flatMap_cons, List.append_assoc,
      readParams?_of_read? (head?_chars_append t _) (FieldType.read?_chars_append t _), ih]
    rfl

/-- What is read as parameters was written so. -/
theorem eq_of_readParams? {cs rest : List Char} {ts : List FieldType}
    (h : readParams? cs = some (ts, rest)) :
    cs = ts.flatMap FieldType.chars ++ ')' :: rest := by
  induction cs using readParams?.induct generalizing ts with
  | case1 cs hhead =>
    rw [readParams?, if_pos hhead] at h
    obtain ⟨rfl, rfl⟩ := Prod.mk.inj (Option.some.inj h)
    obtain ⟨tail, rfl⟩ := List.head?_eq_some_iff.1 hhead
    rfl
  | case2 cs hhead hnone =>
    rw [readParams?_of_read?_eq_none hhead hnone] at h
    simp at h
  | case3 cs hhead t r hr ih =>
    rw [readParams?_of_read? hhead hr] at h
    obtain ⟨⟨us, s⟩, hus, hs⟩ := Option.map_eq_some_iff.1 h
    obtain ⟨rfl, rfl⟩ := Prod.mk.inj hs
    rw [FieldType.eq_chars_append_of_read? hr, ih hus, List.flatMap_cons, List.append_assoc]

theorem readParams?_eq_some_iff {cs rest : List Char} {ts : List FieldType} :
    readParams? cs = some (ts, rest) ↔ cs = ts.flatMap FieldType.chars ++ ')' :: rest := by
  constructor
  · exact eq_of_readParams?
  · rintro rfl
    exact readParams?_flatMap_append ts rest

/-- A result is read exactly from its written form. -/
theorem readResult?_eq_some_iff {cs : List Char} {r : Option FieldType} :
    readResult? cs = some r ↔ cs = resultChars r := by
  by_cases hvoid : cs = ['V']
  · subst hvoid
    cases r with
    | none => simp [readResult?, resultChars]
    | some t =>
      -- No field type is written like `void`.
      have hread : FieldType.read? ['V'] = none := by decide
      have hne : ['V'] ≠ t.chars := by
        intro h
        have ht := FieldType.read?_chars_append t []
        rw [List.append_nil, ← h, hread] at ht
        simp at ht
      simpa [readResult?, resultChars] using hne
  · rw [readResult?, if_neg hvoid]
    cases r with
    | none =>
      simp only [resultChars, hvoid, iff_false]
      split <;> simp
    | some t =>
      have hread : FieldType.read? cs = some (t, []) ↔ cs = t.chars := by
        rw [FieldType.read?_eq_some_iff, List.append_nil]
      rw [resultChars, ← hread]
      split
      · rename_i u h
        simp [h]
      · rename_i hnone
        simpa using hnone t

/-- A method type is read from a text exactly if it is written there, to its end. -/
theorem read?_eq_some_iff {cs : List Char} {m : MethodType} :
    read? cs = some m ↔ cs = m.chars := by
  cases cs with
  | nil => simp [read?, chars]
  | cons c cs =>
    by_cases hc : c = '('
    · subst hc
      rw [read?, if_pos rfl]
      constructor
      · intro h
        obtain ⟨⟨params, rest⟩, hp, h⟩ := Option.bind_eq_some_iff.1 h
        obtain ⟨result, hr, h⟩ := Option.bind_eq_some_iff.1 h
        obtain rfl := Option.some.inj h
        rw [eq_of_readParams? hp, readResult?_eq_some_iff.1 hr]
        rfl
      · intro h
        obtain ⟨-, hcs⟩ := List.cons.inj h
        have hp : readParams? cs = some (m.params, resultChars m.result) :=
          readParams?_eq_some_iff.2 hcs
        have hr : readResult? (resultChars m.result) = some m.result :=
          readResult?_eq_some_iff.2 rfl
        simp [hp, hr]
    · rw [read?, if_neg hc]
      constructor
      · intro h
        simp at h
      · intro h
        exact absurd (List.cons.inj h).1 hc

/-- A descriptor is accepted for the method type that it writes. -/
theorem ofDescriptor_eq_ok_iff {d : String} {m : MethodType} :
    ofDescriptor d = .ok m ↔ d.toList = m.chars := by
  rw [← read?_eq_some_iff, ofDescriptor]
  split <;> simp_all

/-- The texts of the parameters and of the result. -/
def texts (m : MethodType) : List String × String :=
  (m.params.map FieldType.text, String.ofList (resultChars m.result))

/-- The parts of a method descriptor as texts. -/
def split (d : String) : Except FormatError (List String × String) := texts <$> ofDescriptor d

/-- A result is `void` or a field type. -/
theorem result_iff {result : String} :
    result = "V" ∨ IsFieldDescriptor result ↔ ∃ r, String.ofList (resultChars r) = result := by
  constructor
  · rintro (rfl | h)
    · exact ⟨none, rfl⟩
    · obtain ⟨t, rfl⟩ := FieldType.isFieldDescriptor_iff.1 h
      exact ⟨some t, rfl⟩
  · rintro ⟨r, rfl⟩
    cases r with
    | none => exact .inl rfl
    | some t => exact .inr (FieldType.isFieldDescriptor_iff.2 ⟨t, rfl⟩)

/-- Parameters are field types, each of them written. -/
theorem params_iff {params : List String} :
    (∀ p ∈ params, IsFieldDescriptor p) ↔ ∃ ts : List FieldType, ts.map FieldType.text = params := by
  have h := Set.ext_iff.1 (Set.range_list_map FieldType.text) params
  simpa [FieldType.isFieldDescriptor_iff] using h.symm

theorem flatMap_toList_text (ts : List FieldType) :
    (ts.map FieldType.text).flatMap String.toList = ts.flatMap FieldType.chars := by
  rw [List.flatMap_map]
  simp only [FieldType.text, String.toList_ofList]

/-- The grammar cuts a text as the written form of a method type is put together. -/
theorem isMethodDescriptor_iff {d : String} {params : List String} {result : String} :
    IsMethodDescriptor d params result
      ↔ ∃ m : MethodType, d.toList = m.chars ∧ m.texts = (params, result) := by
  constructor
  · rintro ⟨rfl, hparams, hresult⟩
    obtain ⟨ts, rfl⟩ := params_iff.1 hparams
    obtain ⟨r, rfl⟩ := result_iff.1 hresult
    refine ⟨⟨ts, r⟩, ?_, rfl⟩
    simp [chars, flatMap_toList_text]
  · rintro ⟨m, hd, h⟩
    obtain ⟨rfl, rfl⟩ := Prod.mk.inj h
    refine ⟨?_, params_iff.2 ⟨m.params, rfl⟩, result_iff.2 ⟨m.result, rfl⟩⟩
    rw [← String.toList_inj, hd]
    simp [chars, flatMap_toList_text]

/-- **Cut as the grammar says.** The parts of a descriptor are found exactly if the grammar has them. -/
theorem split_eq_ok_iff {d : String} {params : List String} {result : String} :
    split d = .ok (params, result) ↔ IsMethodDescriptor d params result := by
  rw [isMethodDescriptor_iff]
  simp only [← ofDescriptor_eq_ok_iff]
  rw [split]
  cases ofDescriptor d <;> simp [Functor.map, Except.map]

/-- Whatever the grammar does not describe is refused, and the text is named. -/
theorem split_of_not_isMethodDescriptor {d : String}
    (h : ¬ ∃ params result, IsMethodDescriptor d params result) :
    split d = .error (.malformedMethod d) := by
  cases hs : split d with
  | ok parts => exact absurd ⟨parts.1, parts.2, split_eq_ok_iff.1 hs⟩ h
  | error e =>
    rw [split, ofDescriptor] at hs
    split at hs <;> simp_all [Functor.map, Except.map]

end MethodType

end PrimaryDex
