import Mathlib.Algebra.Group.Nat.Defs
import PrimaryDex.ClassFile.ModifiedUtf8

namespace PrimaryDex.ModifiedUtf8

open Text

/-!
# The groups of modified UTF-8

Bytes are read group by group, each by its form alone.

* `Group` — one to three bytes of the forms that are read as a code unit, and `Group.unit`, the code
  unit that their free bits make up;
* `units_eq_ok_iff` — bytes have code units exactly if they are a row of groups: each group is read as
  its own (`unitsBehind_bytes_append`), and nothing else is read (`exists_groups_of_unitsBehind`);
* `decode_eq` — the short way for bytes that are groups of their own gives what the long way gives;
* `decode_iff_groups` — so the bytes with a text are the rows of groups, and they write the text of
  their code units.
-/

/-- Bytes that are read as one code unit, by their form. -/
inductive Group where
  | one (a : UInt8) (ha : 0x01 ≤ a ∧ a ≤ 0x7f)
  | two (a b : UInt8) (ha : 0xc0 ≤ a ∧ a ≤ 0xdf) (hb : 0x80 ≤ b ∧ b ≤ 0xbf)
  | three (a b c : UInt8) (ha : 0xe0 ≤ a ∧ a ≤ 0xef) (hb : 0x80 ≤ b ∧ b ≤ 0xbf)
      (hc : 0x80 ≤ c ∧ c ≤ 0xbf)

namespace Group

/-- The bytes of a group. -/
def bytes : Group → List UInt8
  | one a _ => [a]
  | two a b _ _ => [a, b]
  | three a b c _ _ _ => [a, b, c]

/-- The number that the free bits of a group make up. There are 7 of them in one byte, 5 and 6 in two
    bytes, and 4, 6 and 6 in three. -/
def payload : Group → Nat
  | one a _ => a.toNat
  | two a b _ _ => a.toNat % 2 ^ 5 * 2 ^ 6 + b.toNat % 2 ^ 6
  | three a b c _ _ _ => (a.toNat % 2 ^ 4 * 2 ^ 6 + b.toNat % 2 ^ 6) * 2 ^ 6 + c.toNat % 2 ^ 6

/-- The code unit of a group. -/
def unit (g : Group) : UInt16 := UInt16.ofNat g.payload

/-- The free bits of a group fit into two bytes. -/
theorem payload_lt (g : Group) : g.payload < 2 ^ 16 := by
  cases g with
  | one a ha =>
    have ha' : a.toNat < 2 ^ 8 := a.toNat_lt
    show a.toNat < 2 ^ 16
    omega
  | two | three =>
    simp only [payload]
    omega

theorem toNat_unit (g : Group) : g.unit.toNat = g.payload := by
  rw [unit, UInt16.toNat_ofNat', Nat.mod_eq_of_lt g.payload_lt]

end Group

/-! ### The bits of a group -/

/-- Bounds on bytes are bounds on numbers. -/
theorem toNat_bounds {least a most : UInt8} (h : least ≤ a ∧ a ≤ most) :
    least.toNat ≤ a.toNat ∧ a.toNat ≤ most.toNat :=
  ⟨UInt8.le_iff_toNat_le.1 h.1, UInt8.le_iff_toNat_le.1 h.2⟩

/-- A byte is a group of its own if its high bit is clear and it is not zero. -/
theorem isSingle_iff {a : UInt8} : isSingle a = true ↔ 0x01 ≤ a ∧ a ≤ 0x7f := by
  rw [isSingle, Bool.and_eq_true, decide_eq_true_iff, decide_eq_true_iff]

/-- A byte goes on with a group if its two high bits are one and zero. -/
theorem isContinuation_iff {b : UInt8} : isContinuation b = true ↔ 0x80 ≤ b ∧ b ≤ 0xbf := by
  -- All 256 bytes are tried out.
  have h : ∀ n < 0x100, isContinuation (UInt8.ofNat n) = true
      ↔ 0x80 ≤ UInt8.ofNat n ∧ UInt8.ofNat n ≤ 0xbf := by decide +kernel
  simpa using h b.toNat b.toNat_lt

/-- Six bits of a byte are free in a continuation. -/
theorem toNat_low (b : UInt8) : (low b).toNat = b.toNat % 2 ^ 6 := by
  rw [low, UInt8.toNat_toUInt16, UInt8.toNat_and]
  exact Nat.and_two_pow_sub_one_eq_mod b.toNat 6

theorem toNat_shiftLeft_six_or {x y : UInt16} (hx : x.toNat < 2 ^ 10) (hy : y.toNat < 2 ^ 6) :
    (x <<< 6 ||| y).toNat = x.toNat * 2 ^ 6 + y.toNat := by
  have hwidth : (6 : UInt16).toNat % 16 = 6 := rfl
  rw [UInt16.toNat_or, UInt16.toNat_shiftLeft, hwidth, Nat.shiftLeft_eq,
    Nat.mod_eq_of_lt (by omega), ← Nat.shiftLeft_eq, ← Nat.shiftLeft_add_eq_or_of_lt hy,
    Nat.shiftLeft_eq]

/-- Two bytes make up the number of their free bits. -/
theorem toNat_unit2 (a b : UInt8) :
    (unit2 a b).toNat = a.toNat % 2 ^ 5 * 2 ^ 6 + b.toNat % 2 ^ 6 := by
  have ha : (a &&& 0x1f).toUInt16.toNat = a.toNat % 2 ^ 5 := by
    rw [UInt8.toNat_toUInt16, UInt8.toNat_and]
    exact Nat.and_two_pow_sub_one_eq_mod a.toNat 5
  have hb := toNat_low b
  -- The bits do not overlap, so that they add up.
  rw [unit2, toNat_shiftLeft_six_or (by omega) (by omega), ha, hb]

theorem toNat_unit3 (a b c : UInt8) :
    (unit3 a b c).toNat
      = (a.toNat % 2 ^ 4 * 2 ^ 6 + b.toNat % 2 ^ 6) * 2 ^ 6 + c.toNat % 2 ^ 6 := by
  have ha : (a &&& 0x0f).toUInt16.toNat = a.toNat % 2 ^ 4 := by
    rw [UInt8.toNat_toUInt16, UInt8.toNat_and]
    exact Nat.and_two_pow_sub_one_eq_mod a.toNat 4
  have hb := toNat_low b
  have hc := toNat_low c
  have hfirst : ((a &&& 0x0f).toUInt16 <<< 6 ||| low b).toNat
      = a.toNat % 2 ^ 4 * 2 ^ 6 + b.toNat % 2 ^ 6 := by
    rw [toNat_shiftLeft_six_or (by omega) (by omega), ha, hb]
  -- Twelve places are six and six, so the bits can be put together from the left.
  have hshift : (a &&& 0x0f).toUInt16 <<< 12 = (a &&& 0x0f).toUInt16 <<< 6 <<< 6 :=
    UInt16.shiftLeft_add_of_toNat_lt (b := 6) (c := 6) (by decide)
  rw [unit3, hshift, ← UInt16.shiftLeft_or, toNat_shiftLeft_six_or (by omega) (by omega), hfirst, hc]

/-! ### The code units of groups -/

theorem unit_one {a : UInt8} (ha : 0x01 ≤ a ∧ a ≤ 0x7f) : (Group.one a ha).unit = a.toUInt16 :=
  UInt16.toNat_inj.1 (Group.toNat_unit _)

/-- Of two bytes, the code unit is the one that the reader makes. -/
theorem unit_two {a b : UInt8} (ha : 0xc0 ≤ a ∧ a ≤ 0xdf) (hb : 0x80 ≤ b ∧ b ≤ 0xbf) :
    (Group.two a b ha hb).unit = unit2 a b :=
  UInt16.toNat_inj.1 ((Group.toNat_unit _).trans (toNat_unit2 a b).symm)

theorem unit_three {a b c : UInt8} (ha : 0xe0 ≤ a ∧ a ≤ 0xef) (hb : 0x80 ≤ b ∧ b ≤ 0xbf)
    (hc : 0x80 ≤ c ∧ c ≤ 0xbf) : (Group.three a b c ha hb hc).unit = unit3 a b c :=
  UInt16.toNat_inj.1 ((Group.toNat_unit _).trans (toNat_unit3 a b c).symm)

/-- With its high bit set, a byte is no group of its own. -/
theorem isSingle_eq_false {a : UInt8} (ha : 0x80 ≤ a.toNat) : isSingle a = false := by
  rw [← Bool.not_eq_true, isSingle_iff]
  intro h
  have h' : a.toNat ≤ 0x7f := (toNat_bounds h).2
  omega

/-- **One group.** Its bytes are read as its code unit, whatever stands behind them. -/
theorem unitsBehind_bytes_append (g : Group) (done : List UInt16) (position : Nat)
    (bytes : List UInt8) :
    unitsBehind done position (g.bytes ++ bytes)
      = unitsBehind (g.unit :: done) (position + g.bytes.length) bytes := by
  cases g with
  | one a ha =>
    have hsingle : isSingle a = true := isSingle_iff.2 ha
    rw [unit_one, Group.bytes, List.singleton_append, unitsBehind.eq_def]
    simp only [hsingle, if_true]
    rfl
  | two a b ha hb =>
    have hle : 0xc0 ≤ a.toNat := (toNat_bounds ha).1
    have hsingle : isSingle a = false := isSingle_eq_false (by omega)
    rw [unit_two]
    simp [Group.bytes, unitsBehind, hsingle, ha, isContinuation_iff.2 hb]
  | three a b c ha hb hc =>
    have hle : 0xe0 ≤ a.toNat := (toNat_bounds ha).1
    have hsingle : isSingle a = false := isSingle_eq_false (by omega)
    -- The form of a group of three is tried last.
    have htwo : ¬ (0xc0 ≤ a ∧ a ≤ 0xdf) := by
      intro h
      have h' : a.toNat ≤ 0xdf := (toNat_bounds h).2
      omega
    rw [unit_three]
    simp [Group.bytes, unitsBehind, hsingle, htwo, ha, isContinuation_iff.2 hb,
      isContinuation_iff.2 hc]

/-- Groups are read as their code units. -/
theorem units_flatMap_bytes (groups : List Group) :
    units (groups.flatMap Group.bytes) = .ok (groups.map Group.unit) := by
  have behind (done : List UInt16) (position : Nat) :
      unitsBehind done position (groups.flatMap Group.bytes)
        = .ok (done.reverse ++ groups.map Group.unit) := by
    induction groups generalizing done position with
    | nil => simp [unitsBehind]
    | cons g groups ih =>
      rw [List.flatMap_cons, unitsBehind_bytes_append, ih, List.reverse_cons, List.append_assoc,
        List.singleton_append, List.map_cons]
  exact behind [] 0

/-- **Nothing but groups.** Bytes with code units are a row of groups. -/
theorem exists_groups_of_unitsBehind {done us : List UInt16} {position : Nat} {bytes : List UInt8}
    (h : unitsBehind done position bytes = .ok us) :
    ∃ groups : List Group, groups.flatMap Group.bytes = bytes
      ∧ done.reverse ++ groups.map Group.unit = us := by
  -- A group that is read in front of a row of groups makes a row with it.
  have front (g : Group) {done : List UInt16} {bytes : List UInt8}
      (h : ∃ groups : List Group, groups.flatMap Group.bytes = bytes
        ∧ (g.unit :: done).reverse ++ groups.map Group.unit = us) :
      ∃ groups : List Group, groups.flatMap Group.bytes = g.bytes ++ bytes
        ∧ done.reverse ++ groups.map Group.unit = us := by
    obtain ⟨groups, hbytes, hus⟩ := h
    refine ⟨g :: groups, by rw [List.flatMap_cons, hbytes], ?_⟩
    rw [← hus, List.map_cons, List.reverse_cons, List.append_assoc, List.singleton_append]
  fun_induction unitsBehind done position bytes with
  | case1 done position => exact ⟨[], rfl, by simpa using h⟩
  | case2 done position a bytes ha ih =>
    have ha' := isSingle_iff.1 ha
    exact front (.one a ha') (unit_one ha' ▸ ih h)
  | case3 done position a ha hform b rest hb ih =>
    have hform' : 0xc0 ≤ a ∧ a ≤ 0xdf := by simpa using hform
    have hb' := isContinuation_iff.1 hb
    exact front (.two a b hform' hb') (unit_two hform' hb' ▸ ih h)
  | case6 done position a ha hform hform' b c rest hbc ih =>
    have hform'' : 0xe0 ≤ a ∧ a ≤ 0xef := by simpa using hform'
    rw [Bool.and_eq_true, isContinuation_iff, isContinuation_iff] at hbc
    exact front (.three a b c hform'' hbc.1 hbc.2) (unit_three hform'' hbc.1 hbc.2 ▸ ih h)
  | case4 | case5 | case7 | case8 | case9 => simp at h

/-- Bytes have code units exactly if they are a row of groups with these units. -/
theorem units_eq_ok_iff {bytes : List UInt8} {us : List UInt16} :
    units bytes = .ok us
      ↔ ∃ groups : List Group, groups.flatMap Group.bytes = bytes ∧ groups.map Group.unit = us := by
  constructor
  · intro h
    exact exists_groups_of_unitsBehind h
  · rintro ⟨groups, rfl, rfl⟩
    exact units_flatMap_bytes groups

/-! ### The short way -/

/-- Bytes that are groups of their own are read as what they are. -/
theorem units_of_all_isSingle {bytes : List UInt8} (h : bytes.all isSingle = true) :
    units bytes = .ok (bytes.map UInt8.toUInt16) := by
  refine units_eq_ok_iff.2 ?_
  induction bytes with
  | nil => exact ⟨[], rfl, rfl⟩
  | cons a bytes ih =>
    rw [List.all_cons, Bool.and_eq_true, isSingle_iff] at h
    obtain ⟨groups, hbytes, hus⟩ := ih h.2
    refine ⟨.one a h.1 :: groups, ?_, ?_⟩
    · rw [List.flatMap_cons, hbytes]
      rfl
    · rw [List.map_cons, hus, unit_one, List.map_cons]

/-- Code units below the surrogates are characters. -/
theorem decode_map_toUInt16 (bytes : List UInt8) :
    Utf16.decode (bytes.map UInt8.toUInt16) = bytes.map fun b => Char.ofNat b.toNat := by
  induction bytes with
  | nil => rfl
  | cons b bytes ih =>
    have hlt : b.toUInt16.toNat < 0xd800 :=
      Nat.lt_trans b.toNat_lt (by decide)
    obtain ⟨hhigh, hlow⟩ := Utf16.not_surrogate_iff.2 (.inl hlt)
    rw [List.map_cons, List.map_cons, Utf16.decode_cons_of_not_isHigh hhigh,
      Utf16.single_of_not_surrogate hhigh hlow, ih]
    rfl

/-- **The two ways agree.** Bytes that are all groups of their own give the same text when they are
    read group by group. -/
theorem decode_eq (bytes : List UInt8) :
    decode bytes = (fun us => String.ofList (Utf16.decode us)) <$> units bytes := by
  unfold decode
  split
  · rename_i h
    rw [units_of_all_isSingle h]
    exact congrArg (fun t => Except.ok (String.ofList t)) (decode_map_toUInt16 bytes).symm
  · rfl

/-! ### The text of groups -/

/-- The text that the code units of some groups write. -/
def textOf (groups : List Group) : String := String.ofList (Utf16.decode (groups.map Group.unit))

/-- A row of groups is read as the text of its code units. -/
theorem decode_flatMap_bytes (groups : List Group) :
    decode (groups.flatMap Group.bytes) = .ok (textOf groups) := by
  rw [decode_eq, units_flatMap_bytes]
  rfl

/-- Nothing but a row of groups is read. -/
theorem exists_groups_of_decode {bytes : List UInt8} {t : String} (h : decode bytes = .ok t) :
    ∃ groups : List Group, groups.flatMap Group.bytes = bytes ∧ textOf groups = t := by
  rw [decode_eq] at h
  cases hu : units bytes with
  | error e => simp [hu, Functor.map, Except.map] at h
  | ok us =>
    obtain ⟨groups, hbytes, rfl⟩ := units_eq_ok_iff.1 hu
    rw [hu] at h
    exact ⟨groups, hbytes, Except.ok.inj h⟩

/-- **What is accepted.** Bytes have a text exactly if they are a row of groups, and it is the one that
    the code units of the groups write, where U+FFFD stands for a surrogate without its partner. The
    short way makes no difference to it. -/
theorem decode_iff_groups (bytes : List UInt8) :
    (∀ t, decode bytes = .ok t
        ↔ ∃ groups : List Group, groups.flatMap Group.bytes = bytes ∧ textOf groups = t)
      ∧ decode bytes = (fun us => String.ofList (Utf16.decode us)) <$> units bytes := by
  refine ⟨fun t => ⟨exists_groups_of_decode, ?_⟩, decode_eq bytes⟩
  rintro ⟨groups, rfl, rfl⟩
  exact decode_flatMap_bytes groups

end PrimaryDex.ModifiedUtf8
