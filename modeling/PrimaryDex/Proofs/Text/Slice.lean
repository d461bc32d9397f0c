import PrimaryDex.Text.Utf8

namespace PrimaryDex.Text

/-!
# Slices by bytes

Places in a text may be counted in the bytes of its UTF-8 form, but only those between two characters
cut it into texts.

* `byteLength` — the number of bytes of a text;
* `cutBytes?` — cuts a text behind some bytes; `cutBytes?_eq_some_iff` says that this fails only inside
  a character and beyond the end;
* `byteIndex?` — the place of the first occurrence of a character;
* `exists_encode_cons` — a byte below 0x80 is a character of its own.
-/

/-! ### Encodings -/

@[simp] theorem encode_nil : Utf8.encode [] = [] := rfl

/-- The bytes of a character stand in front of the others. -/
theorem encode_cons (c : Char) (t : List Char) :
    Utf8.encode (c :: t) = String.utf8EncodeChar c ++ Utf8.encode t := rfl

/-- Texts one behind the other have their bytes one behind the other. -/
theorem encode_append (s t : List Char) :
    Utf8.encode (s ++ t) = Utf8.encode s ++ Utf8.encode t :=
  List.flatMap_append

/-- The number of bytes of a text. -/
def byteLength (t : List Char) : Nat := (Utf8.encode t).length

@[simp] theorem byteLength_nil : byteLength [] = 0 := rfl

@[simp] theorem byteLength_cons (c : Char) (t : List Char) :
    byteLength (c :: t) = c.utf8Size + byteLength t := by
  rw [byteLength, encode_cons, List.length_append, String.length_utf8EncodeChar]
  rfl

@[simp] theorem byteLength_append (s t : List Char) :
    byteLength (s ++ t) = byteLength s + byteLength t := by
  rw [byteLength, encode_append, List.length_append]
  rfl

/-- Only the empty text has no bytes. -/
theorem byteLength_pos {t : List Char} (h : t ≠ []) : 0 < byteLength t := by
  obtain ⟨c, r, rfl⟩ := List.exists_cons_of_ne_nil h
  rw [byteLength_cons]
  have hc := c.utf8Size_pos
  omega

/-- The text of a string has as many bytes as the string. -/
theorem byteLength_toList (s : String) : byteLength s.toList = s.utf8ByteSize := by
  rw [← String.size_toByteArray, byteLength, Utf8.encode]
  conv => rhs; rw [← String.ofList_toList (s := s), String.toByteArray_ofList]
  simp [List.utf8Encode]

/-! ### Bytes of one character -/

/-- The characters that are one byte. -/
theorem encode_ascii {c : Char} (h : c.toNat < 0x80) :
    String.utf8EncodeChar c = [c.toUInt8] := by
  have hc : c.val.toNat ≤ 127 := Nat.le_of_lt_succ h
  rw [String.utf8EncodeChar, if_pos hc]
  rfl

/-- An ASCII character is its own byte. -/
theorem toNat_toUInt8 {a : Char} (h : a.toNat < 0x80) : a.toUInt8.toNat = a.toNat := by
  show a.toNat % 256 = a.toNat
  omega

/-- A character starts with the byte of an ASCII character only if it is that character. -/
theorem exists_encode_cons (c : Char) :
    ∃ b bs, String.utf8EncodeChar c = b :: bs
      ∧ ∀ a : Char, a.toNat < 0x80 → (b = a.toUInt8 ↔ c = a) := by
  by_cases hc : c.toNat < 0x80
  · refine ⟨c.toUInt8, [], encode_ascii hc, fun a ha => ?_⟩
    rw [← UInt8.toNat_inj, toNat_toUInt8 hc, toNat_toUInt8 ha, Char.toNat_inj]
  · -- The other characters start with a byte from 0xc0 on.
    have hfirst : ∃ b bs, String.utf8EncodeChar c = b :: bs ∧ 0xc0 ≤ b.toNat := by
      have hv : c.val.toNat = c.toNat := rfl
      rw [String.utf8EncodeChar, if_neg (by omega)]
      split
      · exact ⟨_, _, rfl, by rw [UInt8.toNat_ofNat']; omega⟩
      · split
        · exact ⟨_, _, rfl, by rw [UInt8.toNat_ofNat']; omega⟩
        · exact ⟨_, _, rfl, by rw [UInt8.toNat_ofNat']; omega⟩
    obtain ⟨b, bs, hb, hle⟩ := hfirst
    refine ⟨b, bs, hb, fun a ha => ?_⟩
    rw [← UInt8.toNat_inj, toNat_toUInt8 ha]
    constructor
    · intro h
      omega
    · rintro rfl
      exact absurd ha hc

/-! ### Cutting -/

/-- Cuts a text behind its first `n` bytes, if a character ends there. -/
def cutBytes? : Nat → List Char → Option (List Char × List Char)
  | 0, t => some ([], t)
  | _ + 1, [] => none
  | n + 1, c :: t =>
    if c.utf8Size ≤ n + 1 then
      (cutBytes? (n + 1 - c.utf8Size) t).map fun (front, rest) => (c :: front, rest)
    else none

/-- A text is cut behind the bytes of its front. -/
theorem cutBytes?_append (front rest : List Char) :
    cutBytes? (byteLength front) (front ++ rest) = some (front, rest) := by
  induction front with
  | nil => rw [byteLength_nil, List.nil_append, cutBytes?]
  | cons c front ih =>
    -- A character has at least one byte, so that the cut goes on behind it.
    obtain ⟨k, hk⟩ : ∃ k, c.utf8Size = k + 1 :=
      ⟨c.utf8Size - 1, (Nat.sub_add_cancel c.utf8Size_pos).symm⟩
    have hsize : byteLength (c :: front) = (k + byteLength front) + 1 := by
      rw [byteLength_cons]
      omega
    rw [hsize, List.cons_append, cutBytes?, if_pos (by omega)]
    have hrest : k + byteLength front + 1 - c.utf8Size = byteLength front := by omega
    rw [hrest, ih]
    rfl

/-- **Where a text can be cut.** A cut divides the text into two, of which the first has that many
    bytes. -/
theorem cutBytes?_eq_some_iff {n : Nat} {t front rest : List Char} :
    cutBytes? n t = some (front, rest) ↔ t = front ++ rest ∧ byteLength front = n := by
  constructor
  · intro h
    -- By the recursion of the cut: a character that fits goes to the front.
    induction n, t using cutBytes?.induct generalizing front with
    | case1 t =>
      rw [cutBytes?] at h
      obtain ⟨rfl, rfl⟩ := Prod.mk.inj (Option.some.inj h)
      exact ⟨rfl, rfl⟩
    | case2 n => simp [cutBytes?] at h
    | case3 n c t hc ih =>
      rw [cutBytes?, if_pos hc] at h
      obtain ⟨⟨front', rest'⟩, hcut, he⟩ := Option.map_eq_some_iff.1 h
      obtain ⟨rfl, rfl⟩ := Prod.mk.inj he
      obtain ⟨rfl, hn⟩ := ih hcut
      refine ⟨rfl, ?_⟩
      rw [byteLength_cons]
      omega
    | case4 n c t hc =>
      rw [cutBytes?, if_neg hc] at h
      simp at h
  · rintro ⟨rfl, rfl⟩
    exact cutBytes?_append front rest

/-- How many bytes stand in front of the first occurrence of a character. -/
def byteIndex? (c : Char) (t : List Char) : Option Nat :=
  if c ∈ t then some (byteLength (t.takeWhile (· ≠ c))) else none

end PrimaryDex.Text
