import Mathlib.Data.List.Basic
import PrimaryDex.Proofs.ClassFile.ModifiedUtf8

namespace PrimaryDex.ModifiedUtf8

open Text

/-!
# The groups in which a text is written

A code unit can be written in several groups, of which class files use the shortest, except for U+0000.
A reader that takes groups by their form alone does not tell them apart.

* `width` — in how many bytes a code unit is written, and `Group.IsShortest`, for the groups that keep
  to it;
* `spread` — a number in so many bytes: both a group (`Group.bytes_eq_spread`) and what `encodeUnit`
  writes, so that only the lengths can differ;
* `encodeUnit_unit_iff` — these are the groups that `encodeUnit` writes, one for each code unit
  (`exists_shortest_groups`);
* `decode_encode` — so a text is read back from its bytes;
* `WellFormed` — bytes in such groups, with surrogates in pairs only. They are the bytes that a text
  can be written in again (`encode_eq_iff_wellFormed`).
-/

/-- How many bytes write a code unit: one for U+0001 to U+007F, two for U+0000 and U+0080 to U+07FF,
    and three for all others. -/
def width (u : UInt16) : Nat :=
  if 0 < u.toNat ∧ u.toNat < 0x80 then 1 else if u.toNat < 0x800 then 2 else 3

/-- The group has as many bytes as its code unit is written in. -/
def Group.IsShortest (g : Group) : Prop := g.bytes.length = width g.unit

/-! ### One code unit -/

/-- A number in so many bytes, which get the high bits of their places in a group. -/
def spread (length n : Nat) : List UInt8 :=
  match length with
  | 1 => [UInt8.ofNat n]
  | 2 => [UInt8.ofNat (0xc0 + n / 0x40), UInt8.ofNat (0x80 + n % 0x40)]
  | _ => [UInt8.ofNat (0xe0 + n / 0x1000), UInt8.ofNat (0x80 + n / 0x40 % 0x40),
    UInt8.ofNat (0x80 + n % 0x40)]

/-- A code unit is written as its number, spread over as many bytes as it needs. -/
theorem encodeUnit_eq_spread (u : UInt16) : encodeUnit u = spread (width u) u.toNat := by
  simp only [encodeUnit, width]
  by_cases hone : 0 < u.toNat ∧ u.toNat < 0x80
  · rw [if_pos hone, if_pos hone]
    rfl
  · rw [if_neg hone, if_neg hone]
    by_cases htwo : u.toNat < 0x800
    · rw [if_pos htwo, if_pos htwo]
      rfl
    · rw [if_neg htwo, if_neg htwo]
      rfl

theorem length_encodeUnit (u : UInt16) : (encodeUnit u).length = width u := by
  rw [encodeUnit_eq_spread]
  unfold width
  split
  · rfl
  · split <;> rfl

/-- A group is known by its length and the number that it makes up. -/
theorem Group.bytes_eq_spread (g : Group) : g.bytes = spread g.bytes.length g.payload := by
  -- Since the high bits are those of the form, a byte has nothing but its part of the number.
  cases g with
  | one a ha =>
    show [a] = [UInt8.ofNat a.toNat]
    rw [UInt8.ofNat_toNat]
  | two a b ha hb =>
    have hbounds : 0xc0 ≤ a.toNat ∧ a.toNat ≤ 0xdf := toNat_bounds ha
    have hbounds' : 0x80 ≤ b.toNat ∧ b.toNat ≤ 0xbf := toNat_bounds hb
    have hfirst : 0xc0 + (two a b ha hb).payload / 0x40 = a.toNat := by
      rw [payload]
      omega
    have hsecond : 0x80 + (two a b ha hb).payload % 0x40 = b.toNat := by
      rw [payload]
      omega
    show [a, b] = [UInt8.ofNat (0xc0 + _ / 0x40), UInt8.ofNat (0x80 + _ % 0x40)]
    rw [hfirst, hsecond, UInt8.ofNat_toNat, UInt8.ofNat_toNat]
  | three a b c ha hb hc =>
    have hbounds : 0xe0 ≤ a.toNat ∧ a.toNat ≤ 0xef := toNat_bounds ha
    have hbounds' : 0x80 ≤ b.toNat ∧ b.toNat ≤ 0xbf := toNat_bounds hb
    have hbounds'' : 0x80 ≤ c.toNat ∧ c.toNat ≤ 0xbf := toNat_bounds hc
    have hfirst : 0xe0 + (three a b c ha hb hc).payload / 0x1000 = a.toNat := by
      rw [payload]
      omega
    have hsecond : 0x80 + (three a b c ha hb hc).payload / 0x40 % 0x40 = b.toNat := by
      rw [payload]
      omega
    have hthird : 0x80 + (three a b c ha hb hc).payload % 0x40 = c.toNat := by
      rw [payload]
      omega
    show [a, b, c] = [UInt8.ofNat (0xe0 + _ / 0x1000), UInt8.ofNat (0x80 + _ / 0x40 % 0x40),
      UInt8.ofNat (0x80 + _ % 0x40)]
    rw [hfirst, hsecond, hthird, UInt8.ofNat_toNat, UInt8.ofNat_toNat, UInt8.ofNat_toNat]

theorem bounds_ofNat {least most : UInt8} {n : Nat} (h : least.toNat ≤ n ∧ n ≤ most.toNat) :
    least ≤ UInt8.ofNat n ∧ UInt8.ofNat n ≤ most := by
  have hn : (UInt8.ofNat n).toNat = n :=
    UInt8.toNat_ofNat_of_lt' (Nat.lt_of_le_of_lt h.2 most.toNat_lt)
  rwa [UInt8.le_iff_toNat_le, UInt8.le_iff_toNat_le, hn]

/-- The bytes of a code unit are a group, and its code unit is this one. -/
theorem exists_group_of_encodeUnit (u : UInt16) :
    ∃ g : Group, g.bytes = encodeUnit u ∧ g.unit = u := by
  have hu : u.toNat < 0x10000 := u.toNat_lt
  have hbyte : ∀ n < 0x100, (UInt8.ofNat n).toNat = n := fun n hn => UInt8.toNat_ofNat_of_lt' hn
  simp only [encodeUnit, ← UInt16.toNat_inj, Group.toNat_unit]
  -- One case for each length, and in each the bytes have to be in bounds and their bits have to add
  -- up.
  split
  · rename_i hn
    refine ⟨.one _ (bounds_ofNat ⟨?_, ?_⟩), rfl, ?_⟩
    · show 0x01 ≤ u.toNat
      omega
    · show u.toNat ≤ 0x7f
      omega
    · show (UInt8.ofNat u.toNat).toNat = u.toNat
      rw [hbyte _ (by omega)]
  · split
    · rename_i _ hn
      refine ⟨.two _ _ (bounds_ofNat ⟨?_, ?_⟩) (bounds_ofNat ⟨?_, ?_⟩), rfl, ?_⟩
      · show 0xc0 ≤ 0xc0 + u.toNat / 0x40
        omega
      · show 0xc0 + u.toNat / 0x40 ≤ 0xdf
        omega
      · show 0x80 ≤ 0x80 + u.toNat % 0x40
        omega
      · show 0x80 + u.toNat % 0x40 ≤ 0xbf
        omega
      · rw [Group.payload, hbyte _ (by omega), hbyte _ (by omega)]
        omega
    · rename_i _ hn
      refine ⟨.three _ _ _ (bounds_ofNat ⟨?_, ?_⟩) (bounds_ofNat ⟨?_, ?_⟩) (bounds_ofNat ⟨?_, ?_⟩),
        rfl, ?_⟩
      · show 0xe0 ≤ 0xe0 + u.toNat / 0x1000
        omega
      · show 0xe0 + u.toNat / 0x1000 ≤ 0xef
        omega
      · show 0x80 ≤ 0x80 + u.toNat / 0x40 % 0x40
        omega
      · show 0x80 + u.toNat / 0x40 % 0x40 ≤ 0xbf
        omega
      · show 0x80 ≤ 0x80 + u.toNat % 0x40
        omega
      · show 0x80 + u.toNat % 0x40 ≤ 0xbf
        omega
      · rw [Group.payload, hbyte _ (by omega), hbyte _ (by omega), hbyte _ (by omega)]
        omega

/-- **The shortest groups** are those in which code units are written. -/
theorem encodeUnit_unit_iff {g : Group} : encodeUnit g.unit = g.bytes ↔ g.IsShortest := by
  constructor
  · intro h
    rw [Group.IsShortest, ← h, length_encodeUnit]
  · intro h
    rw [encodeUnit_eq_spread, ← h, Group.toNat_unit, ← Group.bytes_eq_spread]

/-! ### A whole text -/

/-- A row of shortest groups is what its code units are written in. -/
theorem flatMap_encodeUnit_map_unit {groups : List Group} (h : ∀ g ∈ groups, g.IsShortest) :
    (groups.map Group.unit).flatMap encodeUnit = groups.flatMap Group.bytes := by
  rw [List.flatMap_map]
  exact List.flatMap_congr fun g hg => encodeUnit_unit_iff.2 (h g hg)

/-- Code units are written in a row of shortest groups. -/
theorem exists_shortest_groups (us : List UInt16) :
    ∃ groups : List Group, (∀ g ∈ groups, g.IsShortest) ∧ groups.map Group.unit = us
      ∧ groups.flatMap Group.bytes = us.flatMap encodeUnit := by
  induction us with
  | nil => exact ⟨[], by simp, rfl, rfl⟩
  | cons u us ih =>
    obtain ⟨g, hbytes, hunit⟩ := exists_group_of_encodeUnit u
    obtain ⟨groups, hshort, hunits, hrest⟩ := ih
    have hg : g.IsShortest := encodeUnit_unit_iff.1 (by rw [hunit, hbytes])
    refine ⟨g :: groups, List.forall_mem_cons.2 ⟨hg, hshort⟩, ?_, ?_⟩
    · rw [List.map_cons, hunit, hunits]
    · rw [List.flatMap_cons, List.flatMap_cons, hbytes, hrest]

/-- A text is read back from its bytes. -/
theorem decode_encode (t : String) : decode (encode t) = .ok t := by
  obtain ⟨groups, -, hunits, hbytes⟩ := exists_shortest_groups (Utf16.encode t.toList)
  rw [encode, ← hbytes, decode_flatMap_bytes, textOf, hunits, Utf16.decode_encode,
    String.ofList_toList]

/-- **Every text comes back.** Its UTF-16 code units, each in the one, two or three bytes for it, are
    read as the text again. -/
theorem decode_shortest_groups (t : String) :
    decode (encode t) = .ok t
      ∧ ∃ groups : List Group, groups.flatMap Group.bytes = encode t
        ∧ groups.map Group.unit = Utf16.encode t.toList ∧ ∀ g ∈ groups, g.IsShortest := by
  obtain ⟨groups, hshort, hunits, hbytes⟩ := exists_shortest_groups (Utf16.encode t.toList)
  exact ⟨decode_encode t, groups, hbytes, hunits, hshort⟩

/-! ### Well-formed bytes -/

/-- Bytes as a text is written in them: shortest groups, where every surrogate is half of a pair. -/
def WellFormed (bytes : List UInt8) : Prop :=
  ∃ groups : List Group, groups.flatMap Group.bytes = bytes ∧ (∀ g ∈ groups, g.IsShortest)
    ∧ Utf16.Paired (groups.map Group.unit)

/-- Whatever is written is well-formed. -/
theorem wellFormed_encode (t : String) : WellFormed (encode t) := by
  obtain ⟨groups, hshort, hunits, hbytes⟩ := exists_shortest_groups (Utf16.encode t.toList)
  exact ⟨groups, hbytes, hshort, hunits ▸ Utf16.paired_encode t.toList⟩

/-- Well-formed bytes are those that their text is written in. -/
theorem WellFormed.encode_eq {bytes : List UInt8} {t : String} (hw : WellFormed bytes)
    (h : decode bytes = .ok t) : encode t = bytes := by
  obtain ⟨groups, rfl, hshort, hpaired⟩ := hw
  rw [decode_flatMap_bytes, Except.ok.injEq] at h
  rw [← h, encode, textOf, String.toList_ofList, hpaired.encode_decode,
    flatMap_encodeUnit_map_unit hshort]

/-- **Which bytes come back.** Bytes that are read as a text are the ones that it is written in exactly if
    they are well-formed. Hence two texts that are read from well-formed bytes differ if the bytes do. -/
theorem encode_eq_iff_wellFormed {bytes : List UInt8} {t : String} (h : decode bytes = .ok t) :
    (encode t = bytes ↔ WellFormed bytes)
      ∧ ∀ others, decode others = .ok t → WellFormed bytes → WellFormed others
        → others = bytes := by
  refine ⟨⟨fun he => he ▸ wellFormed_encode t, fun hw => hw.encode_eq h⟩, ?_⟩
  intro others ho hw hwo
  rw [← hwo.encode_eq ho, hw.encode_eq h]

/-- A character beyond U+FFFF, in two groups of three bytes. -/
theorem encode_eq_iff_wellFormed_pair :
    decode [0xed, 0xa0, 0xbd, 0xed, 0xb8, 0x80] = .ok "😀"
      ∧ WellFormed [0xed, 0xa0, 0xbd, 0xed, 0xb8, 0x80]
      ∧ ∀ others, decode others = .ok "😀" → WellFormed others
        → others = [0xed, 0xa0, 0xbd, 0xed, 0xb8, 0x80] := by
  have h : decode [0xed, 0xa0, 0xbd, 0xed, 0xb8, 0x80] = .ok "😀" := rfl
  obtain ⟨hiff, hunique⟩ := encode_eq_iff_wellFormed h
  have hw : WellFormed [0xed, 0xa0, 0xbd, 0xed, 0xb8, 0x80] := hiff.1 rfl
  exact ⟨h, hw, fun others ho hwo => hunique others ho hw hwo⟩

/-- Longer groups than needed and surrogates outside pairs are read as well, as the texts of other bytes. -/
theorem decode_overlong :
    (decode [0xc1, 0x81] = .ok "A" ∧ decode [0x41] = .ok "A" ∧ encode "A" = [0x41])
      ∧ decode [0xed, 0xa0, 0x80] = .ok "\ufffd" ∧ decode [0xef, 0xbf, 0xbd] = .ok "\ufffd"
      ∧ encode "\ufffd" = [0xef, 0xbf, 0xbd] :=
  ⟨⟨rfl, rfl, rfl⟩, rfl, rfl, rfl⟩

end PrimaryDex.ModifiedUtf8
