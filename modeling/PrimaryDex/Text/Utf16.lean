namespace PrimaryDex.Text.Utf16

/-!
# UTF-16

A character is one code unit, or a high and a low surrogate if it lies beyond U+FFFF.

* `encode` — the code units of a text;
* `decode` — the text of any code units, where a surrogate without its partner reads as U+FFFD;
* `decode_encode` — decoding inverts encoding;
* `Paired` — no surrogate is without its partner: so it is in encoded texts (`paired_encode`), and such
  code units are what encoding gives back (`Paired.encode_decode`).
-/

/-- Whether a code unit is the first half of a pair. -/
def isHigh (u : UInt16) : Bool := 0xd800 ≤ u && u < 0xdc00

/-- Whether a code unit is the second half of a pair. -/
def isLow (u : UInt16) : Bool := 0xdc00 ≤ u && u < 0xe000

/-- What stands for something that is no character. -/
def replacement : Char := '\ufffd'

/-- The character of a high and a low surrogate. -/
def paired (high low : UInt16) : Char :=
  Char.ofNat (0x10000 + (high.toNat - 0xd800) * 0x400 + (low.toNat - 0xdc00))

/-- The character of a code unit that stands alone. -/
def single (u : UInt16) : Char :=
  if isHigh u || isLow u then replacement else Char.ofNat u.toNat

/-- The text of a list of code units. A surrogate outside a pair gives a `replacement`. -/
def decode : List UInt16 → List Char
  | [] => []
  | [u] => [single u]
  | u :: v :: us =>
    if isHigh u && isLow v then paired u v :: decode us else single u :: decode (v :: us)

/-- The one or two code units of a character. -/
def encodeChar (c : Char) : List UInt16 :=
  let n := c.toNat
  if n < 0x10000 then [UInt16.ofNat n]
  else [UInt16.ofNat (0xd800 + (n - 0x10000) / 0x400), UInt16.ofNat (0xdc00 + (n - 0x10000) % 0x400)]

/-- The code units of a text. -/
def encode (t : List Char) : List UInt16 :=
  t.flatMap encodeChar

/-- Each surrogate among the code units is half of a pair. -/
inductive Paired : List UInt16 → Prop where
  | nil : Paired []
  | single {u : UInt16} {us : List UInt16} (hu : isHigh u = false) (hu' : isLow u = false)
      (hus : Paired us) : Paired (u :: us)
  | pair {u v : UInt16} {us : List UInt16} (hu : isHigh u = true) (hv : isLow v = true)
      (hus : Paired us) : Paired (u :: v :: us)

/-! ### Surrogates -/

/-- The high surrogates as numbers. -/
theorem isHigh_iff {u : UInt16} : isHigh u = true ↔ 0xd800 ≤ u.toNat ∧ u.toNat < 0xdc00 := by
  simp only [isHigh, UInt16.le_iff_toNat_le, UInt16.lt_iff_toNat_lt, Bool.and_eq_true,
    decide_eq_true_eq]
  rfl

/-- The low surrogates as numbers. -/
theorem isLow_iff {u : UInt16} : isLow u = true ↔ 0xdc00 ≤ u.toNat ∧ u.toNat < 0xe000 := by
  simp only [isLow, UInt16.le_iff_toNat_le, UInt16.lt_iff_toNat_lt, Bool.and_eq_true,
    decide_eq_true_eq]
  rfl

/-- All other code units are below the surrogates or above them. -/
theorem not_surrogate_iff {u : UInt16} :
    isHigh u = false ∧ isLow u = false ↔ u.toNat < 0xd800 ∨ 0xdfff < u.toNat := by
  rw [← Bool.not_eq_true, ← Bool.not_eq_true, isHigh_iff, isLow_iff]
  omega

/-- A code unit that is no surrogate is the character of its number. -/
theorem single_of_not_surrogate {u : UInt16} (hu : isHigh u = false) (hu' : isLow u = false) :
    single u = Char.ofNat u.toNat := by
  simp [single, hu, hu']

/-- The number of a character is found again. -/
theorem toNat_ofNat_of_isValidChar {n : Nat} (h : n.isValidChar) : (Char.ofNat n).toNat = n := by
  rw [Char.ofNat, dif_pos h]
  rfl

/-! ### One character -/

/-- The code units of a character are one that is no surrogate, or a pair. Read back, they are the
    character. -/
theorem encodeChar_cases (c : Char) :
    (∃ u, encodeChar c = [u] ∧ isHigh u = false ∧ isLow u = false ∧ single u = c)
      ∨ ∃ u v, encodeChar c = [u, v] ∧ isHigh u = true ∧ isLow v = true ∧ paired u v = c := by
  have hc : c.toNat < 0xd800 ∨ (0xdfff < c.toNat ∧ c.toNat < 0x110000) := c.valid
  simp only [encodeChar]
  split
  · rename_i hn
    have hu : (UInt16.ofNat c.toNat).toNat = c.toNat :=
      (UInt16.toNat_ofNat' ..).trans (Nat.mod_eq_of_lt hn)
    obtain ⟨hhigh, hlow⟩ := not_surrogate_iff.2 (hu.symm ▸ hc.imp_right And.left)
    refine .inl ⟨_, rfl, hhigh, hlow, ?_⟩
    rw [single_of_not_surrogate hhigh hlow, hu, Char.ofNat_toNat]
  · rename_i hn
    have hu : (UInt16.ofNat (0xd800 + (c.toNat - 0x10000) / 0x400)).toNat
        = 0xd800 + (c.toNat - 0x10000) / 0x400 :=
      (UInt16.toNat_ofNat' ..).trans (Nat.mod_eq_of_lt (by omega))
    have hv : (UInt16.ofNat (0xdc00 + (c.toNat - 0x10000) % 0x400)).toNat
        = 0xdc00 + (c.toNat - 0x10000) % 0x400 :=
      (UInt16.toNat_ofNat' ..).trans (Nat.mod_eq_of_lt (by omega))
    refine .inr ⟨_, _, rfl, isHigh_iff.2 (by omega), isLow_iff.2 (by omega), ?_⟩
    -- The quotient and the remainder of the code point beyond U+FFFF make it up again.
    have hn' : 0x10000 + (0xd800 + (c.toNat - 0x10000) / 0x400 - 0xd800) * 0x400
        + (0xdc00 + (c.toNat - 0x10000) % 0x400 - 0xdc00) = c.toNat := by omega
    rw [paired, hu, hv, hn', Char.ofNat_toNat]

/-- A code unit that is no surrogate is encoded as itself. -/
theorem encodeChar_single {u : UInt16} (hu : isHigh u = false) (hu' : isLow u = false) :
    encodeChar (single u) = [u] := by
  have hlt : u.toNat < 0x10000 := u.toNat_lt
  have hvalid : u.toNat.isValidChar :=
    (not_surrogate_iff.1 ⟨hu, hu'⟩).imp_right fun h => ⟨h, by omega⟩
  have hn : (single u).toNat = u.toNat := by
    rw [single_of_not_surrogate hu hu', toNat_ofNat_of_isValidChar hvalid]
  rw [encodeChar, hn, if_pos hlt, UInt16.ofNat_toNat]

/-- The character of a pair is encoded as that pair. -/
theorem encodeChar_paired {u v : UInt16} (hu : isHigh u = true) (hv : isLow v = true) :
    encodeChar (paired u v) = [u, v] := by
  rw [isHigh_iff] at hu
  rw [isLow_iff] at hv
  have hn : (paired u v).toNat = 0x10000 + (u.toNat - 0xd800) * 0x400 + (v.toNat - 0xdc00) :=
    toNat_ofNat_of_isValidChar (.inr ⟨by omega, by omega⟩)
  -- The high surrogate holds the quotient by 0x400, the low one the remainder.
  have hhigh : 0xd800 + ((paired u v).toNat - 0x10000) / 0x400 = u.toNat := by omega
  have hlow : 0xdc00 + ((paired u v).toNat - 0x10000) % 0x400 = v.toNat := by omega
  rw [encodeChar, if_neg (by omega), hhigh, hlow, UInt16.ofNat_toNat, UInt16.ofNat_toNat]

/-! ### A whole text -/

/-- A code unit that begins no pair is read alone. -/
theorem decode_cons_of_not_isHigh {u : UInt16} (hu : isHigh u = false) (us : List UInt16) :
    decode (u :: us) = single u :: decode us := by
  cases us with
  | nil => rfl
  | cons v us => rw [decode, hu, Bool.false_and, if_neg Bool.false_ne_true]

/-- A pair is read as one character. -/
theorem decode_cons_pair {u v : UInt16} (hu : isHigh u = true) (hv : isLow v = true)
    (us : List UInt16) : decode (u :: v :: us) = paired u v :: decode us := by
  rw [decode, hu, hv, Bool.and_self, if_pos rfl]

/-- A character that was encoded is read first, whatever follows it. -/
theorem decode_encodeChar_append (c : Char) (us : List UInt16) :
    decode (encodeChar c ++ us) = c :: decode us := by
  rcases encodeChar_cases c with ⟨u, hc, hu, -, hs⟩ | ⟨u, v, hc, hu, hv, hp⟩
  · rw [hc, List.singleton_append, decode_cons_of_not_isHigh hu, hs]
  · rw [hc, List.cons_append, List.singleton_append, decode_cons_pair hu hv, hp]

/-- Decoding inverts encoding. -/
theorem decode_encode (t : List Char) : decode (encode t) = t := by
  induction t with
  | nil => rfl
  | cons c t ih => rw [encode, List.flatMap_cons, decode_encodeChar_append, ← encode, ih]

/-- The surrogates of an encoded text are paired. -/
theorem paired_encode (t : List Char) : Paired (encode t) := by
  induction t with
  | nil => exact .nil
  | cons c t ih =>
    rw [encode, List.flatMap_cons, ← encode]
    rcases encodeChar_cases c with ⟨u, hc, hu, hu', -⟩ | ⟨u, v, hc, hu, hv, -⟩
    · rw [hc]
      exact .single hu hu' ih
    · rw [hc]
      exact .pair hu hv ih

/-- Code units with paired surrogates are found again in what they read as. -/
theorem Paired.encode_decode {us : List UInt16} (h : Paired us) : encode (decode us) = us := by
  induction h with
  | nil => rfl
  | single hu hu' _ ih =>
    rw [decode_cons_of_not_isHigh hu, encode, List.flatMap_cons, ← encode, ih,
      encodeChar_single hu hu', List.singleton_append]
  | pair hu hv _ ih =>
    rw [decode_cons_pair hu hv, encode, List.flatMap_cons, ← encode, ih, encodeChar_paired hu hv]
    rfl

end PrimaryDex.Text.Utf16
