import Mathlib.Data.List.TakeWhile
import PrimaryDex.Proofs.Descriptor.Grammar
import PrimaryDex.Proofs.Text.Slice

namespace PrimaryDex

open Text

/-!
# Descriptors cut by bytes

A descriptor can be read by the bytes of its text as well: the byte behind the dimensions tells what
stands there, the length of the field type is counted in bytes, and the text is cut there. This never
cuts a character in two, and finds what is read character by character.

* `FieldType.span?` — the length in bytes of the field type in front of a text;
* `MethodType.slice` — the parts of a method descriptor, cut off one after the other;
* `FieldType.span?_eq`, `MethodType.slice_eq` — both are what reading gives, and no cut fails;
* `MethodType.split_iff_grammar` — so a descriptor is cut exactly as the grammar says.

In both functions `none` stands for a cut that fails.
-/

/-! ### One field type -/

namespace FieldType

/-- How many bytes the field type in front of a text takes, if there is one. A class name is looked for
    behind the dimensions, where the text has to be cut. -/
def span? (t : List Char) : Option (Option Nat) :=
  let bytes := Utf8.encode t
  let dims := (bytes.takeWhile (· = '['.toUInt8)).length
  match bytes[dims]? with
  | none => some none
  | some b =>
    if b ∈ baseLetters.map Char.toUInt8 then some (some (dims + 1))
    else if b = 'L'.toUInt8 then
      (cutBytes? dims t).map fun (_, element) =>
        ((byteIndex? ';' element).filter (1 < ·)).map (dims + · + 1)
    else some none

/-- A dimension in front adds one byte, and moves a cut by as much. -/
theorem span?_cons_dim (t : List Char) : span? ('[' :: t) = (span? t).map (·.map (· + 1)) := by
  have hbytes : Utf8.encode ('[' :: t) = '['.toUInt8 :: Utf8.encode t := by
    rw [encode_cons, encode_ascii (by decide), List.singleton_append]
  have hcut (n : Nat) : cutBytes? (n + 1) ('[' :: t)
      = (cutBytes? n t).map fun (front, rest) => ('[' :: front, rest) := rfl
  simp only [span?, hbytes, decide_true, List.takeWhile_cons_of_pos, List.length_cons,
    List.getElem?_cons_succ]
  generalize ((Utf8.encode t).takeWhile (· = '['.toUInt8)).length = dims
  split
  · rfl
  · split
    · rfl
    · split
      · rw [hcut]
        cases cutBytes? dims t with
        | none => rfl
        | some parts =>
          have hadd (n : Nat) : dims + 1 + n + 1 = dims + n + 1 + 1 := by omega
          simp [Function.comp_def, hadd]
      · rfl

/-- An object type is found by its first semicolon, which must not be its second byte. -/
theorem byteIndex?_object (t : List Char) :
    ((byteIndex? ';' ('L' :: t)).filter (1 < ·)).map (0 + · + 1)
      = (readObject? t).map fun r => byteLength r.1.chars := by
  have htake : ('L' :: t).takeWhile (· ≠ ';') = 'L' :: t.takeWhile (· ≠ ';') := rfl
  have hsize : 'L'.utf8Size = 1 := rfl
  cases hr : readObject? t with
  | some r =>
    obtain ⟨n, hn, rfl⟩ := eq_of_readObject? hr
    have hpos : 0 < byteLength n.chars := byteLength_pos n.ne_nil
    have hmem : ';' ∈ 'L' :: (n.chars ++ ';' :: r.2) := by simp
    have hsemi : ';'.utf8Size = 1 := rfl
    have hlt : 1 < 1 + byteLength n.chars := by omega
    rw [byteIndex?, if_pos hmem, htake, takeWhile_name, byteLength_cons, hsize]
    simp [hn, chars, hlt, hsize, hsemi, Nat.add_assoc]
  | none =>
    by_cases hmem : ';' ∈ t
    · -- Nothing stands in front of the semicolon, or else an object type would be read.
      have hempty : t.takeWhile (· ≠ ';') = [] := by
        simp only [readObject?] at hr
        split at hr
        · rename_i hd
          exact absurd (List.dropWhile_eq_nil_iff.1 hd ';' hmem) (by decide)
        · split at hr
          · assumption
          · simp at hr
      have hmem' : ';' ∈ 'L' :: t := List.mem_cons_of_mem _ hmem
      rw [byteIndex?, if_pos hmem', htake, hempty]
      rfl
    · have hmem' : ';' ∉ 'L' :: t := by simpa using hmem
      rw [byteIndex?, if_neg hmem']
      rfl

/-- Without dimensions, the first byte tells what stands there just as the first character does. -/
theorem span?_cons_of_ne {c : Char} (hdim : c ≠ '[') (t : List Char) :
    span? (c :: t) = some (if c ∈ baseLetters then some 1
      else if c = 'L' then ((byteIndex? ';' (c :: t)).filter (1 < ·)).map (0 + · + 1) else none) := by
  obtain ⟨b, bs, hb, hbyte⟩ := exists_encode_cons c
  have hbytes : Utf8.encode (c :: t) = b :: (bs ++ Utf8.encode t) := by
    rw [encode_cons, hb, List.cons_append]
  have hb_dim : b ≠ '['.toUInt8 := fun h => hdim ((hbyte '[' (by decide)).1 h)
  have hb_object : b = 'L'.toUInt8 ↔ c = 'L' := hbyte 'L' (by decide)
  -- The tests on the first byte are tests on the first character, as all of the characters in
  -- question are ASCII.
  have hb_base : b ∈ baseLetters.map Char.toUInt8 ↔ c ∈ baseLetters := by
    have hascii : ∀ a ∈ baseLetters, a.toNat < 0x80 := by simp [baseLetters]
    rw [List.mem_map]
    constructor
    · rintro ⟨a, ha, rfl⟩
      rwa [(hbyte a (hascii a ha)).1 rfl]
    · intro hc
      exact ⟨c, hc, ((hbyte c (hascii c hc)).2 rfl).symm⟩
  have hnone : (b :: (bs ++ Utf8.encode t)).takeWhile (· = '['.toUInt8) = [] :=
    List.takeWhile_cons_of_neg (by simpa using hb_dim)
  simp only [span?, hbytes, hnone, List.length_nil, List.getElem?_cons_zero, hb_base, hb_object,
    cutBytes?, Option.map_some]
  split
  · rfl
  · split <;> rfl

/-- **Measured by bytes, read by characters.** The length of a field type is found without a failing
    cut, and it is that of the type that is read. -/
theorem span?_eq (t : List Char) : span? t = some ((read? t).map fun r => byteLength r.1.chars) := by
  induction t with
  | nil => rfl
  | cons c t ih =>
    by_cases hdim : c = '['
    · subst hdim
      have hsize : '['.utf8Size = 1 := rfl
      rw [span?_cons_dim, ih]
      simp [read?, Function.comp_def, chars, hsize, Nat.add_comm]
    · rw [span?_cons_of_ne hdim]
      by_cases hbase : c ∈ baseLetters
      · obtain ⟨base, rfl⟩ := BaseType.mem_baseLetters_iff.1 hbase
        have hread : read? (base.letter :: t) = some (.base base, t) :=
          read?_chars_append (.base base) t
        have hsize : base.letter.utf8Size = 1 := by cases base <;> rfl
        rw [if_pos hbase, hread]
        simp [chars, hsize]
      · rw [if_neg hbase]
        by_cases hobject : c = 'L'
        · subst hobject
          rw [if_pos rfl, byteIndex?_object]
          rfl
        · -- Neither a bracket nor one of the nine letters: nothing is read.
          have hnone : BaseType.ofLetter? c = none := by
            by_contra hsome
            obtain ⟨base, hbase'⟩ := Option.ne_none_iff_exists'.1 hsome
            exact hbase (BaseType.mem_baseLetters_iff.2 ⟨base, BaseType.letter_of_ofLetter? hbase'⟩)
          rw [if_neg hobject, read?, if_neg hdim, if_neg hobject, hnone]
          rfl

/-- A field type takes some bytes. -/
theorem pos_of_span? {t : List Char} {n : Nat} (h : span? t = some (some n)) : 0 < n := by
  rw [span?_eq] at h
  obtain ⟨⟨u, rest⟩, -, rfl⟩ := Option.map_eq_some_iff.1 (Option.some.inj h)
  exact byteLength_pos u.chars_ne_nil

end FieldType

/-! ### Method types -/

namespace MethodType

/-- Cuts parameters off a text, one after the other, up to the closing parenthesis. -/
def cutParams? (t : List Char) : Option (Option (List (List Char) × List Char)) :=
  if t.head? = some ')' then some (some ([], t.tail))
  else match _hspan : FieldType.span? t with
    | none => none
    | some none => some none
    | some (some n) =>
      match _hcut : cutBytes? n t with
      | none => none
      | some (param, rest) =>
        (cutParams? rest).map (·.map fun (params, result) => (param :: params, result))
termination_by t.length
decreasing_by
  have hn := FieldType.pos_of_span? _hspan
  obtain ⟨rfl, hparam⟩ := cutBytes?_eq_some_iff.1 _hcut
  have hne : param ≠ [] := by
    rintro rfl
    rw [byteLength_nil] at hparam
    omega
  have hlength := List.length_pos_iff.2 hne
  rw [List.length_append]
  omega

/-- Whether a text as a whole is a result, by its length. -/
def isResult? (t : List Char) : Option Bool :=
  if t = ['V'] then some true else (FieldType.span? t).map (· = some (byteLength t))

/-- The parts of a method descriptor, cut off by bytes. -/
def slice (d : String) : Option (Except FormatError (List String × String)) :=
  match d.toList with
  | '(' :: t =>
    (cutParams? t).bind fun
      | none => some (.error (.malformedMethod d))
      | some (params, result) =>
        (isResult? result).map fun accepted =>
          if accepted then .ok (params.map String.ofList, String.ofList result)
          else .error (.malformedMethod d)
  | _ => some (.error (.malformedMethod d))

/-- Where no field type stands, the parameters are refused. -/
theorem cutParams?_of_span?_eq_none {t : List Char} (hhead : t.head? ≠ some ')')
    (h : FieldType.span? t = some none) : cutParams? t = some none := by
  rw [cutParams?, if_neg hhead]
  split <;> simp_all

/-- A parameter is cut off behind its bytes, and then the others are. -/
theorem cutParams?_of_span? {param rest : List Char} (hhead : (param ++ rest).head? ≠ some ')')
    (h : FieldType.span? (param ++ rest) = some (some (byteLength param))) :
    cutParams? (param ++ rest)
      = (cutParams? rest).map (·.map fun (params, result) => (param :: params, result)) := by
  rw [cutParams?, if_neg hhead]
  split
  · simp_all
  · simp_all
  · rename_i n hn
    rw [h] at hn
    obtain rfl := Option.some.inj (Option.some.inj hn)
    have hcut' := cutBytes?_append param rest
    split
    · simp_all
    · rename_i front rest' hcut
      rw [hcut'] at hcut
      obtain ⟨rfl, rfl⟩ := Prod.mk.inj (Option.some.inj hcut)
      rfl

/-- **No parameter is cut in two.** -/
theorem cutParams?_eq (t : List Char) :
    cutParams? t = some ((readParams? t).map fun (ts, rest) => (ts.map FieldType.chars, rest)) := by
  induction t using readParams?.induct with
  | case1 t hhead =>
    rw [cutParams?, readParams?, if_pos hhead, if_pos hhead]
    rfl
  | case2 t hhead hread =>
    have hspan : FieldType.span? t = some none := by rw [FieldType.span?_eq, hread]; rfl
    rw [cutParams?_of_span?_eq_none hhead hspan, readParams?_of_read?_eq_none hhead hread]
    rfl
  | case3 t hhead u rest hread ih =>
    obtain rfl := FieldType.eq_chars_append_of_read? hread
    have hspan : FieldType.span? (u.chars ++ rest) = some (some (byteLength u.chars)) := by
      rw [FieldType.span?_eq, hread]
      rfl
    rw [cutParams?_of_span? hhead hspan, readParams?_of_read? hhead hread, ih]
    simp [Function.comp_def]

/-- A slice is a result exactly if one can be read from it. -/
theorem isResult?_eq (t : List Char) : isResult? t = some (readResult? t).isSome := by
  by_cases hvoid : t = ['V']
  · rw [isResult?, readResult?, if_pos hvoid, if_pos hvoid]
    rfl
  · rw [isResult?, readResult?, if_neg hvoid, if_neg hvoid, FieldType.span?_eq, Option.map_some]
    congr 1
    cases hread : FieldType.read? t with
    | none => rfl
    | some r =>
      obtain ⟨u, rest⟩ := r
      obtain rfl := FieldType.eq_chars_append_of_read? hread
      -- Both ask whether anything stands behind the field type.
      cases rest with
      | nil => simp
      | cons c rest =>
        have hpos := byteLength_pos (List.cons_ne_nil c rest)
        have hlength : byteLength u.chars ≠ byteLength (u.chars ++ c :: rest) := by
          rw [byteLength_append]
          omega
        simpa using hlength

/-- **Cut by bytes, read by characters.** -/
theorem slice_eq (d : String) : slice d = some (split d) := by
  rw [slice, split, ofDescriptor]
  split
  · rename_i t hd
    -- Both read the parameters and then the result. One keeps the types, the other the slices.
    have hread : read? d.toList = (readParams? t).bind fun (params, rest) =>
        (readResult? rest).map fun result => ⟨params, result⟩ := by
      rw [hd, read?, if_pos rfl]
      cases readParams? t with
      | none => rfl
      | some r => cases hr : readResult? r.2 <;> simp [hr]
    rw [hread, cutParams?_eq]
    cases readParams? t with
    | none => rfl
    | some r =>
      obtain ⟨ts, rest⟩ := r
      simp only [Option.map_some, Option.bind_some, isResult?_eq]
      cases hr : readResult? rest with
      | none => rfl
      | some result =>
        obtain rfl := readResult?_eq_some_iff.1 hr
        simp [Functor.map, Except.map, texts, FieldType.text]
  · rename_i hopen
    have hread : read? d.toList = none := by
      cases hd : d.toList with
      | nil => rfl
      | cons c t =>
        rw [read?, if_neg]
        rintro rfl
        exact hopen t hd
    rw [hread]
    rfl

/-- **Descriptors are cut in one way.** The parts of a text are found exactly if it is put together of
    them as the grammar says. No text is put together in two ways, and one that is not put together
    in any way is refused. Cut by bytes, no text is ever cut inside a character, and the outcome is
    the same. -/
theorem split_iff_grammar (d : String) :
    (∀ params result, split d = .ok (params, result) ↔ IsMethodDescriptor d params result)
      ∧ (∀ params result params' result', IsMethodDescriptor d params result →
        IsMethodDescriptor d params' result' → params = params' ∧ result = result')
      ∧ ((¬ ∃ params result, IsMethodDescriptor d params result) →
        split d = .error (.malformedMethod d))
      ∧ slice d = some (split d) := by
  refine ⟨fun params result => split_eq_ok_iff, ?_, split_of_not_isMethodDescriptor, slice_eq d⟩
  intro params result params' result' h h'
  have heq := (split_eq_ok_iff.2 h).symm.trans (split_eq_ok_iff.2 h')
  exact Prod.mk.inj (Except.ok.inj heq)

/-- Class names with parentheses and brackets. -/
theorem isMethodDescriptor_bracketed :
    IsMethodDescriptor "(La);[I[[Lé[;)La)b;" ["La);", "[I", "[[Lé[;"] "La)b;" where
  written := by decide
  params := by
    simp only [List.forall_mem_cons, List.not_mem_nil, false_imp_iff, implies_true, and_true]
    exact ⟨⟨0, _, rfl, .inr ⟨['a', ')'], by decide, by decide, by decide⟩⟩,
      ⟨1, ['I'], rfl, .inl ⟨'I', by decide, rfl⟩⟩,
      ⟨2, _, rfl, .inr ⟨['é', '['], by decide, by decide, by decide⟩⟩⟩
  result := .inr ⟨0, _, rfl, .inr ⟨['a', ')', 'b'], by decide, by decide, by decide⟩⟩

/-- Neither a parenthesis nor a bracket in a name is taken for one of the descriptor. -/
theorem split_iff_grammar_bracketed :
    split "(La);[I[[Lé[;)La)b;" = .ok (["La);", "[I", "[[Lé[;"], "La)b;") :=
  ((split_iff_grammar _).1 _ _).2 isMethodDescriptor_bracketed

end MethodType

end PrimaryDex
