import PrimaryDex.Proofs.ClassFile.References
import PrimaryDex.Proofs.ClassFile.Truncation

namespace PrimaryDex

open Decoder

/-!
# The slots of a constant pool

A pool that is accepted was filled by constants that stand one behind the other, so its slots are just
theirs. What cannot fill the declared slots is refused.

* `ConstantPool.decodeConstant_eq_ok_iff` — a constant is read by its tag, whichever slot it is for;
* `ConstantPool.exists_row_of_decode` — the bytes of an accepted pool are a row of constants;
* `ConstantPool.getElem?_succ_slots` — in the slots of such a row, those behind wide constants are
  empty, and no others;
* `ConstantPool.mem_entries_iff`, `pairwise_entries` — which constants are listed, and in which order;
* `ConstantPool.decode_of_unknownTag`, `decode_of_wide_last`, `decode_of_zero` — what is refused;
* `ConstantPool.Shaped`, `decode_shape` — the shape of every accepted pool, with the reasons for a
  refusal.
-/

/-! ### What was read -/

namespace ConstantPool

/-- A constant is told by its tag alone, whichever slot it is for. -/
theorem decodeConstant_eq_ok_iff {index : Nat} {c c' : Cursor} {k : Constant} :
    decodeConstant index c = .ok (k, c') ↔ ∃ tag kind c₁, u8 c = .ok (tag, c₁)
      ∧ ConstantKind.ofTag? tag = some kind ∧ decodeBody kind c₁ = .ok (k, c') := by
  constructor
  · intro h
    obtain ⟨tag, c₁, htag, hbody⟩ := exists_of_bind_eq_ok h
    cases hkind : ConstantKind.ofTag? tag with
    | some kind =>
      rw [hkind] at hbody
      exact ⟨tag, kind, c₁, htag, hkind, hbody⟩
    | none =>
      rw [hkind] at hbody
      exact absurd hbody throw_ne_ok
  · rintro ⟨tag, kind, c₁, htag, hkind, hbody⟩
    rw [decodeConstant, bind_of_eq_ok htag, hkind]
    exact hbody

/-- The slot that a constant is for only matters for faults. -/
theorem reads_decodeConstant_of_reads {i j : Nat} {front : List UInt8} {k : Constant}
    (h : (decodeConstant i).Reads front k) : (decodeConstant j).Reads front k := by
  intro rest offset
  exact decodeConstant_eq_ok_iff.2 (decodeConstant_eq_ok_iff.1 (h rest offset))

/-- Slots are filled by a row of constants, up to the number that is wanted. -/
theorem exists_row_of_decodeSlots {count : Nat} {slots slots' : Array (Option Constant)}
    (hle : slots.size ≤ count) {bytes : List UInt8} {offset : Nat} {c : Cursor}
    (h : decodeSlots count slots ⟨bytes, offset⟩ = .ok (slots', c)) :
    ∃ front cs, bytes = front ++ c.rest ∧ Row front cs
      ∧ slots' = slots ++ (cs.flatMap Constant.slots).toArray ∧ slots'.size = count := by
  -- By the recursion over the slots, from the back: the row is what was read last, with one
  -- constant more in front.
  induction slots using decodeSlots.induct count generalizing bytes offset with
  | case1 slots hlt wide narrow =>
    rw [decodeSlots, if_pos hlt] at h
    obtain ⟨k, c₁, hk, h⟩ := exists_of_bind_eq_ok h
    obtain ⟨first, hbytes, hreads, -⟩ := steady_decodeConstant _ _ _ _ _ hk
    -- What follows is a row, so with this constant in front it is one, too.
    have extend {more : Array (Option Constant)} (hmore : slots ++ k.slots.toArray = more)
        (hrest : ∃ front cs, c₁.rest = front ++ c.rest ∧ Row front cs
          ∧ slots' = more ++ (cs.flatMap Constant.slots).toArray ∧ slots'.size = count) :
        ∃ front cs, bytes = front ++ c.rest ∧ Row front cs
          ∧ slots' = slots ++ (cs.flatMap Constant.slots).toArray ∧ slots'.size = count := by
      obtain ⟨front, cs, hfront, hrow, hslots, hsize⟩ := hrest
      refine ⟨first ++ front, k :: cs, ?_, ?_, ?_, hsize⟩
      · rw [hbytes, hfront, List.append_assoc]
      · exact .cons (fun _ => reads_decodeConstant_of_reads hreads) hrow
      · rw [hslots, ← hmore, List.flatMap_cons]
        simp
    by_cases hw : k.isWide = true
    · rw [if_pos hw] at h
      split at h
      · rename_i hroom
        refine extend ?_ (wide k hroom (by simp only [Array.size_push]; omega) h)
        rw [Constant.slots_of_isWide hw]
        rfl
      · exact absurd h throw_ne_ok
    · rw [if_neg hw] at h
      have hnarrow : k.isWide = false := by simpa using hw
      refine extend ?_ (narrow k (by rw [Array.size_push]; omega) h)
      rw [Constant.slots_of_not_isWide hnarrow]
      simp
  | case2 slots hfull =>
    rw [decodeSlots, if_neg hfull] at h
    obtain ⟨rfl, rfl⟩ := Prod.mk.inj (Except.ok.inj h)
    exact ⟨[], [], rfl, .nil, by simp, by omega⟩

/-- A number of two bytes is read from these. -/
theorem exists_of_u16_eq_ok {c c' : Cursor} {n : UInt16} (h : u16 c = .ok (n, c')) :
    c.rest = bigEndianBytes 2 n.toNat ++ c'.rest := by
  obtain ⟨front, c₁, htake, hn⟩ := exists_of_bind_eq_ok h
  obtain ⟨rfl, rfl⟩ := Prod.mk.inj (Except.ok.inj hn)
  obtain ⟨hrest, hlen, -⟩ := take_eq_ok_iff.1 htake
  have hfront := bigEndianBytes_bigEndian front
  have hlt : bigEndian front < 2 ^ 16 := by
    rw [← hfront, bigEndian_bigEndianBytes, hlen]
    exact Nat.mod_lt _ (by decide)
  rw [UInt16.toNat_ofNat_of_lt' hlt, hrest]
  rw [hlen] at hfront
  rw [hfront]

/-- **What an accepted pool was read from.** The number of its slots, and a row of constants that fill
    them. -/
theorem exists_row_of_decode {bytes : List UInt8} {offset : Nat} {p : ConstantPool} {c : Cursor}
    (h : decode ⟨bytes, offset⟩ = .ok (p, c)) :
    ∃ front cs, bytes = bigEndianBytes 2 p.size ++ front ++ c.rest ∧ Row front cs
      ∧ p = ofConstants cs ∧ p.size < 2 ^ 16 := by
  obtain ⟨count, c₁, hcount, h⟩ := exists_of_bind_eq_ok h
  have hbytes : bytes = bigEndianBytes 2 count.toNat ++ c₁.rest := exists_of_u16_eq_ok hcount
  by_cases hzero : count = 0
  · rw [if_pos hzero] at h
    obtain ⟨_, _, hthrow, -⟩ := exists_of_bind_eq_ok h
    exact absurd hthrow throw_ne_ok
  · rw [if_neg hzero] at h
    obtain ⟨slots, c₂, hslots, h⟩ := exists_of_bind_eq_ok h
    obtain ⟨rfl, rfl⟩ := Prod.mk.inj (Except.ok.inj h)
    -- A count that is not zero has room for the unused slot.
    have hpos : 1 ≤ count.toNat := by
      by_contra hlt
      exact hzero (UInt16.toNat_inj.1 (Nat.lt_one_iff.1 (Nat.lt_of_not_le hlt)))
    obtain ⟨front, cs, hfront, hrow, rfl, hsize⟩ := exists_row_of_decodeSlots hpos hslots
    refine ⟨front, cs, ?_, hrow, ?_, ?_⟩
    · show bytes = bigEndianBytes 2 (#[none] ++ (cs.flatMap Constant.slots).toArray).size ++ _ ++ _
      rw [hsize, hbytes, hfront, List.append_assoc]
    · simp [ofConstants]
    · show (#[none] ++ (cs.flatMap Constant.slots).toArray).size < 2 ^ 16
      rw [hsize]
      exact count.toNat_lt

/-! ### Which slots are empty -/

/-- Behind a slot without a wide constant, the slots of further constants are empty just behind the
    wide ones. -/
theorem getElem?_succ_slots (cs : List Constant) (first : Option Constant)
    (hfirst : ∀ c, first = some c → c.isWide = false) (i : Nat) :
    (first :: cs.flatMap Constant.slots)[i + 1]? = some none
      ↔ ∃ c, (first :: cs.flatMap Constant.slots)[i]? = some (some c) ∧ c.isWide = true := by
  -- The slot in front is no wide constant's, which is what the first index asks for.
  have hnone : ¬ ∃ c, some first = some (some c) ∧ c.isWide = true := by
    rintro ⟨c, hc, hw⟩
    rw [hfirst c (Option.some.inj hc)] at hw
    simp at hw
  induction cs generalizing first i with
  | nil =>
    cases i with
    | zero => simpa using hnone
    | succ i => simp
  | cons c cs ih =>
    rw [List.flatMap_cons]
    by_cases hw : c.isWide = true
    · rw [Constant.slots_of_isWide hw]
      match i with
      | 0 => simpa using hnone
      | 1 => simp [hw]
      | i + 2 => exact ih none (by simp) i (by simp)
    · have hnarrow : c.isWide = false := by simpa using hw
      rw [Constant.slots_of_not_isWide hnarrow]
      match i with
      | 0 => simpa using hnone
      | i + 1 => exact ih (some c) (by simp [hnarrow]) i (by simp [hnarrow])

/-- **Empty slots.** Slot 0 is empty, and of the others those behind a wide constant. -/
theorem getElem?_succ_ofConstants (cs : List Constant) (i : Nat) :
    (ofConstants cs).slots[i + 1]? = some none
      ↔ ∃ c, (ofConstants cs).slots[i]? = some (some c) ∧ c.isWide = true := by
  simpa [ofConstants] using getElem?_succ_slots cs none (by simp) i

/-! ### What is listed -/

/-- A constant is listed with the index of its slot, since all indices fit into 16 bits. -/
theorem mem_entries_iff {p : ConstantPool} (hsize : p.size < 2 ^ 16) {index : UInt16} {c : Constant} :
    (index, c) ∈ p.entries ↔ p.slots[index.toNat]? = some (some c) := by
  constructor
  · intro h
    obtain ⟨⟨slot, i⟩, hslot, he⟩ := List.mem_filterMap.1 h
    obtain ⟨c', rfl, hc⟩ := Option.map_eq_some_iff.1 he
    obtain ⟨rfl, rfl⟩ := Prod.mk.inj hc
    rw [List.mk_mem_zipIdx_iff_getElem?, Array.getElem?_toList] at hslot
    have hlt : i < p.size := (Array.getElem?_eq_some_iff.1 hslot).1
    rwa [UInt16.toNat_ofNat_of_lt' (Nat.lt_trans hlt hsize)]
  · exact mem_entries

/-- The indices increase along the list, so none occurs twice. -/
theorem pairwise_entries {p : ConstantPool} (hsize : p.size < 2 ^ 16) :
    p.entries.Pairwise fun e e' => e.1 < e'.1 := by
  have hindices : p.slots.toList.zipIdx.Pairwise fun s s' => s.2 < s'.2 ∧ s'.2 < 2 ^ 16 := by
    rw [List.pairwise_iff_getElem]
    intro i j hi hj hij
    have hlt : j < p.slots.size := by simpa using hj
    rw [size] at hsize
    rw [List.getElem_zipIdx, List.getElem_zipIdx]
    show 0 + i < 0 + j ∧ 0 + j < 2 ^ 16
    omega
  refine hindices.filterMap _ ?_
  rintro ⟨slot, i⟩ ⟨slot', i'⟩ ⟨hlt, hlt'⟩ e he e' he'
  obtain ⟨c, -, rfl⟩ := Option.map_eq_some_iff.1 he
  obtain ⟨c', -, rfl⟩ := Option.map_eq_some_iff.1 he'
  rw [UInt16.lt_iff_toNat_lt, UInt16.toNat_ofNat_of_lt' (Nat.lt_trans hlt hlt'),
    UInt16.toNat_ofNat_of_lt' hlt']
  exact hlt

/-! ### What is refused -/

/-- The unused slot counts. -/
theorem size_ofConstants (cs : List Constant) :
    (ofConstants cs).size = 1 + (cs.flatMap Constant.slots).length := by
  simp [ofConstants, size, Nat.add_comm]

/-- What is wrong behind a row of constants is wrong with the pool. -/
theorem decode_eq_error_of_row {count : Nat} {front rest : List UInt8} {cs : List Constant}
    {offset : Nat} {e : FormatError} (hcount : count < 2 ^ 16) (hrow : Row front cs)
    (hroom : (ofConstants cs).size ≤ count)
    (h : decodeSlots count (ofConstants cs).slots ⟨rest, offset + 2 + front.length⟩ = .error e) :
    decode ⟨bigEndianBytes 2 count ++ front ++ rest, offset⟩ = .error e := by
  have hnumber : (UInt16.ofNat count).toNat = count := UInt16.toNat_ofNat_of_lt' hcount
  have hread := reads_u16 count (front ++ rest) offset
  rw [length_bigEndianBytes] at hread
  rw [size_ofConstants] at hroom
  have hpos : UInt16.ofNat count ≠ 0 := by
    intro hzero
    rw [hzero, UInt16.toNat_zero] at hnumber
    omega
  have hslots : #[none] ++ (cs.flatMap Constant.slots).toArray = (ofConstants cs).slots := by
    simp [ofConstants]
  have hrest := decodeSlots_row hrow #[none] hroom rest (offset + 2)
  rw [hslots, h] at hrest
  rw [decode, List.append_assoc, bind_of_eq_ok hread, if_neg hpos, hnumber]
  exact bind_of_eq_error hrest

/-- The eight bytes behind the tag of a wide constant are read, whatever they are. -/
theorem exists_reads_wide {tag : UInt8} {body : List UInt8} (htag : tag = 5 ∨ tag = 6)
    (hlen : body.length = 8) (index : Nat) : ∃ c, (decodeConstant index).Reads (tag :: body) c := by
  have hbody := bigEndianBytes_bigEndian body
  rw [hlen] at hbody
  have hword := reads_u64 (bigEndian body)
  rw [hbody] at hword
  rcases htag with rfl | rfl
  · exact ⟨_, reads_tagged index rfl hword.map⟩
  · exact ⟨_, reads_tagged index rfl hword.map⟩

/-- **A tag that is not known is refused** where a constant should stand. -/
theorem decode_of_unknownTag {count : Nat} {front more : List UInt8} {cs : List Constant}
    {tag : UInt8} (hcount : count < 2 ^ 16) (hrow : Row front cs)
    (hroom : (ofConstants cs).size < count) (htag : ConstantKind.ofTag? tag = none) (offset : Nat) :
    decode ⟨bigEndianBytes 2 count ++ front ++ tag :: more, offset⟩
      = .error (.unknownTag tag (ofConstants cs).size) := by
  refine decode_eq_error_of_row hcount hrow (Nat.le_of_lt hroom) ?_
  rw [size] at hroom ⊢
  rw [decodeSlots, if_pos hroom]
  have hread := reads_u8 tag more (offset + 2 + front.length)
  rw [List.singleton_append] at hread
  apply bind_of_eq_error
  rw [decodeConstant, bind_of_eq_ok hread, htag]
  rfl

/-- Behind the tags 5 and 6 nothing but a wide constant is read. -/
theorem isWide_of_decodeConstant {tag : UInt8} {more : List UInt8} {index offset : Nat}
    {k : Constant} {c : Cursor} (htag : tag = 5 ∨ tag = 6)
    (h : decodeConstant index ⟨tag :: more, offset⟩ = .ok (k, c)) : k.isWide = true := by
  obtain ⟨tag', kind, c₁, hread, hkind, hbody⟩ := decodeConstant_eq_ok_iff.1 h
  obtain ⟨rfl, -⟩ := Prod.mk.inj (Except.ok.inj ((reads_u8 tag more offset).symm.trans hread))
  rcases htag with rfl | rfl <;>
  · obtain rfl := Option.some.inj hkind
    obtain ⟨_, _, -, hk⟩ := exists_of_bind_eq_ok hbody
    obtain ⟨rfl, -⟩ := Prod.mk.inj (Except.ok.inj hk)
    rfl

/-- **A wide constant for the last slot is refused**, whether or not all of it is there. -/
theorem decode_of_wide_last {count : Nat} {front more : List UInt8} {cs : List Constant}
    {tag : UInt8} (hcount : count < 2 ^ 16) (hrow : Row front cs)
    (hroom : (ofConstants cs).size + 1 = count) (htag : tag = 5 ∨ tag = 6) (offset : Nat) :
    ∃ e, decode ⟨bigEndianBytes 2 count ++ front ++ tag :: more, offset⟩ = .error e
      ∧ (8 ≤ more.length → e = .wideOverflow (ofConstants cs).size) := by
  have hlast : (ofConstants cs).slots.size < count := by rw [size] at hroom; omega
  have hfull : ¬ (ofConstants cs).slots.size + 1 < count := by rw [size] at hroom; omega
  -- The pool is refused for whatever is wrong with this constant or with its slots.
  have hrefuse {e : FormatError} (h : decodeSlots count (ofConstants cs).slots
      ⟨tag :: more, offset + 2 + front.length⟩ = .error e) :
      decode ⟨bigEndianBytes 2 count ++ front ++ tag :: more, offset⟩ = .error e :=
    decode_eq_error_of_row hcount hrow (Nat.le_of_lt hlast) h
  cases hk : decodeConstant (ofConstants cs).size ⟨tag :: more, offset + 2 + front.length⟩ with
  | error e =>
    refine ⟨e, hrefuse ?_, fun hlen => ?_⟩
    · rw [decodeSlots, if_pos hlast]
      exact bind_of_eq_error hk
    · -- With all of its bytes, a wide constant is read.
      have hbody : (more.take 8).length = 8 := List.length_take_of_le hlen
      obtain ⟨c, hread⟩ := exists_reads_wide htag hbody (ofConstants cs).size
      have hok := hread (more.drop 8) (offset + 2 + front.length)
      rw [List.cons_append, List.take_append_drop, hk] at hok
      simp at hok
  | ok r =>
    have hw := isWide_of_decodeConstant htag hk
    refine ⟨_, hrefuse ?_, fun _ => rfl⟩
    rw [decodeSlots, if_pos hlast]
    refine (bind_of_eq_ok hk).trans ?_
    rw [if_pos hw, if_neg hfull]
    rfl

/-- **A pool without slots is refused.** -/
theorem decode_of_zero (rest : List UInt8) (offset : Nat) :
    decode ⟨bigEndianBytes 2 0 ++ rest, offset⟩ = .error .emptyPoolCount := by
  rw [decode, bind_of_eq_ok (reads_u16 0 rest offset)]
  rfl

/-! ### The shape of a pool -/

/-- An index with which no constant is listed gives nothing. -/
theorem get_of_forall_not_mem {p : ConstantPool} (hsize : p.size < 2 ^ 16) {index : UInt16}
    (h : ∀ c, (index, c) ∉ p.entries) : p.get index = .error (.invalidIndex index) := by
  cases hget : p.get index with
  | ok c => exact absurd ((mem_entries_iff hsize).2 (get_eq_ok_iff.1 hget)) (h c)
  | error e =>
    rw [get] at hget
    split at hget <;> simp_all

/-- How the slots of a pool are laid out, and how they are reached. -/
structure Shaped (p : ConstantPool) : Prop where
  first : p.slots[0]? = some none
  behind : ∀ i : Nat, p.slots[i + 1]? = some none
    ↔ ∃ k, p.slots[i]? = some (some k) ∧ k.isWide = true
  listed : ∀ (i : Nat) k, p.slots[i]? = some (some k)
    ↔ ∃ index : UInt16, index.toNat = i ∧ (index, k) ∈ p.entries
  increasing : p.entries.Pairwise fun e e' => e.1 < e'.1
  get_iff : ∀ index k, p.get index = .ok k ↔ (index, k) ∈ p.entries
  get_other : ∀ index, (∀ k, (index, k) ∉ p.entries) → p.get index = .error (.invalidIndex index)

/-- A row of constants fills a pool of this shape. -/
theorem shaped_ofConstants {cs : List Constant} (hsize : (ofConstants cs).size < 2 ^ 16) :
    (ofConstants cs).Shaped where
  first := rfl
  behind := getElem?_succ_ofConstants cs
  listed i k := by
    constructor
    · intro hslot
      have hlt : i < (ofConstants cs).size := (Array.getElem?_eq_some_iff.1 hslot).1
      have hindex : (UInt16.ofNat i).toNat = i := UInt16.toNat_ofNat_of_lt' (Nat.lt_trans hlt hsize)
      refine ⟨UInt16.ofNat i, hindex, ?_⟩
      rw [mem_entries_iff hsize, hindex]
      exact hslot
    · rintro ⟨index, rfl, hmem⟩
      exact (mem_entries_iff hsize).1 hmem
  increasing := pairwise_entries hsize
  get_iff index k := by rw [get_eq_ok_iff, mem_entries_iff hsize]
  get_other _ := get_of_forall_not_mem hsize

/-- **The shape of a pool.** An accepted pool has the declared number of slots, which a row of constants
    fills. Slot 0 and the slots behind wide constants are empty, and no others. Each constant is listed
    with the index of its slot, in increasing order, and an index gives the constant that is listed with
    it or else nothing. A pool without slots, an unknown tag and a wide constant for the last slot are
    refused behind whatever constants. -/
theorem decode_shape (bytes : List UInt8) (offset : Nat) :
    (∀ p c, decode ⟨bytes, offset⟩ = .ok (p, c) →
        p.size = bigEndian (bytes.take 2) ∧ p.Shaped
          ∧ ∃ front cs, bytes = bigEndianBytes 2 p.size ++ front ++ c.rest ∧ Row front cs
            ∧ p = ofConstants cs)
      ∧ (∀ rest, bytes = bigEndianBytes 2 0 ++ rest →
        decode ⟨bytes, offset⟩ = .error .emptyPoolCount)
      ∧ ∀ count front cs tag more, count < 2 ^ 16 → Row front cs →
        bytes = bigEndianBytes 2 count ++ front ++ tag :: more →
          ((ofConstants cs).size < count → ConstantKind.ofTag? tag = none →
            decode ⟨bytes, offset⟩ = .error (.unknownTag tag (ofConstants cs).size))
          ∧ ((ofConstants cs).size + 1 = count → tag = 5 ∨ tag = 6 →
            ∃ e, decode ⟨bytes, offset⟩ = .error e
              ∧ (8 ≤ more.length → e = .wideOverflow (ofConstants cs).size)) := by
  refine ⟨fun p c h => ?_, ?_, ?_⟩
  · obtain ⟨front, cs, hbytes, hrow, rfl, hsize⟩ := exists_row_of_decode h
    refine ⟨?_, shaped_ofConstants hsize, front, cs, hbytes, hrow, rfl⟩
    have htake : bytes.take 2 = bigEndianBytes 2 (ofConstants cs).size := by
      rw [hbytes, List.append_assoc, List.take_left' (length_bigEndianBytes 2 _)]
    rw [htake, bigEndian_bigEndianBytes]
    exact (Nat.mod_eq_of_lt hsize).symm
  · rintro rest rfl
    exact decode_of_zero rest offset
  · rintro count front cs tag more hcount hrow rfl
    exact ⟨fun hroom htag => decode_of_unknownTag hcount hrow hroom htag offset,
      fun hroom htag => decode_of_wide_last hcount hrow hroom htag offset⟩

/-- Of a pool with a wide constant among others, of one that ends in such a constant, and of a tag that
    no constant has. -/
theorem decode_shape_front :
    (ofConstants Sample.front.constants).Shaped
      ∧ decode ⟨[0, 2, 5, 0, 0, 0, 0, 0, 0, 0, 7], 0⟩ = .error (.wideOverflow 1)
      ∧ decode ⟨[0, 2, 2], 0⟩ = .error (.unknownTag 2 1) := by
  have hread := reads_decode Sample.front.fits Sample.front.length_slots_le [] 0
  obtain ⟨e, he, hcause⟩ := ((decode_shape _ 0).2.2 2 [] [] 5 [0, 0, 0, 0, 0, 0, 0, 7] (by decide) .nil
    rfl).2 rfl (.inl rfl)
  refine ⟨((decode_shape _ 0).1 _ _ hread).2.1, ?_, ?_⟩
  · exact he.trans (congrArg _ (hcause (by decide)))
  · exact ((decode_shape _ 0).2.2 2 [] [] 2 [] (by decide) .nil rfl).1 (by decide) rfl

end ConstantPool

end PrimaryDex
