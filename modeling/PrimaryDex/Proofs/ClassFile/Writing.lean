import Mathlib.Algebra.Group.Nat.Defs
import Mathlib.Data.List.Forall2
import Mathlib.Data.List.Induction
import PrimaryDex.ClassPath.Basic
import PrimaryDex.Proofs.ClassFile.ShortestGroups
import PrimaryDex.Proofs.ClassFile.Naming
import PrimaryDex.Proofs.ClassFile.Reading

namespace PrimaryDex

open Decoder

/-!
# Class files as they are written

The front part of a class file, written by the layout of the format, is read back as what it says.

* `bigEndianBytes` — the bytes of a number;
* `Constant.bytes`, `Constant.slots` — a constant in the file, and the slots that it takes;
* `ConstantPool.bytesOf`, `ClassFront.bytes` — all constants, and all that stands in a front part;
* `ClassFront.Says` — what a front part says, by the entries that its indices point at;
* `ConstantPool.Row` — bytes that are read as constants, one behind the other;
* `ConstantPool.reads_decodeConstant`, `decodeSlots_row`, `ClassHeader.reads_decoder` — each decoder
  reads what is written for it;
* `ClassPath.decodeFile_bytes` — so a whole file says what its front part says.
-/

/-! ### Numbers -/

/-- The last `width` bytes of a number, the most significant one first. -/
def bigEndianBytes : Nat → Nat → List UInt8
  | 0, _ => []
  | width + 1, n => bigEndianBytes width (n / 256) ++ [UInt8.ofNat n]

@[simp] theorem length_bigEndianBytes (width n : Nat) : (bigEndianBytes width n).length = width := by
  induction width generalizing n with
  | zero => rfl
  | succ width ih => rw [bigEndianBytes, List.length_append, ih, List.length_singleton]

/-- One byte more shifts those before it by eight bits. -/
theorem bigEndian_append_singleton (bytes : List UInt8) (b : UInt8) :
    bigEndian (bytes ++ [b]) = bigEndian bytes * 256 + b.toNat := by
  simp [bigEndian]

/-- The last bytes of a number are its remainder. -/
theorem bigEndian_bigEndianBytes (width n : Nat) :
    bigEndian (bigEndianBytes width n) = n % 256 ^ width := by
  induction width generalizing n with
  | zero => rw [Nat.pow_zero, Nat.mod_one]; rfl
  | succ width ih =>
    have hpow : 256 ^ (width + 1) = 256 * 256 ^ width := Nat.pow_succ'
    rw [bigEndianBytes, bigEndian_append_singleton, ih, UInt8.toNat_ofNat', hpow, Nat.mod_mul]
    omega

/-- Bytes are those of the number that they write. -/
theorem bigEndianBytes_bigEndian (bytes : List UInt8) :
    bigEndianBytes bytes.length (bigEndian bytes) = bytes := by
  -- From the last byte, which is the remainder of the number by 256.
  induction bytes using List.reverseRecOn with
  | nil => rfl
  | append_singleton bytes b ih =>
    have hb : b.toNat < 256 := b.toNat_lt
    have hhigh : (bigEndian bytes * 256 + b.toNat) / 256 = bigEndian bytes := by omega
    have hlow : UInt8.ofNat (bigEndian bytes * 256 + b.toNat) = b := by
      apply UInt8.toNat_inj.1
      rw [UInt8.toNat_ofNat']
      omega
    rw [List.length_append, List.length_singleton, bigEndianBytes, bigEndian_append_singleton,
      hhigh, ih, hlow]

/-- The bytes of a number are those of its leading and of its trailing half. -/
theorem bigEndianBytes_add (j k n : Nat) :
    bigEndianBytes (j + k) n = bigEndianBytes j (n / 256 ^ k) ++ bigEndianBytes k n := by
  induction k generalizing n with
  | zero => simp [bigEndianBytes]
  | succ k ih =>
    rw [← Nat.add_assoc, bigEndianBytes, bigEndianBytes, ih, Nat.div_div_eq_div_mul,
      ← Nat.pow_succ', List.append_assoc]

theorem reads_u8 (b : UInt8) : u8.Reads [b] b := by
  have htake : (take 1).Reads [b] [b] := reads_take rfl
  have h := htake.map (g := fun bytes => UInt8.ofNat (bigEndian bytes))
  have hb : UInt8.ofNat (bigEndian [b]) = b := by simp [bigEndian]
  rwa [hb] at h

/-- Two bytes are read as the number that they write. -/
theorem reads_u16 (n : Nat) : u16.Reads (bigEndianBytes 2 n) (UInt16.ofNat n) := by
  have h := (reads_take (length_bigEndianBytes 2 n)).map
    (g := fun bytes => UInt16.ofNat (bigEndian bytes))
  rw [bigEndian_bigEndianBytes] at h
  have hn : UInt16.ofNat (n % 256 ^ 2) = UInt16.ofNat n := by
    apply UInt16.toNat_inj.1
    simp
  rwa [hn] at h

theorem reads_u32 (n : Nat) : u32.Reads (bigEndianBytes 4 n) (UInt32.ofNat n) := by
  have h := (reads_take (length_bigEndianBytes 4 n)).map
    (g := fun bytes => UInt32.ofNat (bigEndian bytes))
  rw [bigEndian_bigEndianBytes] at h
  have hn : UInt32.ofNat (n % 256 ^ 4) = UInt32.ofNat n := by
    apply UInt32.toNat_inj.1
    simp
  rwa [hn] at h

/-- Two words of four bytes make up one of eight. -/
theorem toNat_shiftLeft_or (high low : UInt32) :
    (high.toUInt64 <<< 32 ||| low.toUInt64).toNat = high.toNat * 2 ^ 32 + low.toNat := by
  have hhigh : high.toNat < 2 ^ 32 := high.toNat_lt
  have hlow : low.toNat < 2 ^ 32 := low.toNat_lt
  have hwidth : (32 : UInt64).toNat % 64 = 32 := rfl
  rw [UInt64.toNat_or, UInt64.toNat_shiftLeft, UInt32.toNat_toUInt64, UInt32.toNat_toUInt64, hwidth,
    Nat.shiftLeft_eq, Nat.mod_eq_of_lt (by omega), ← Nat.shiftLeft_eq,
    ← Nat.shiftLeft_add_eq_or_of_lt hlow, Nat.shiftLeft_eq]

/-- A word of eight bytes is read in two halves. -/
theorem reads_u64 (n : Nat) : u64.Reads (bigEndianBytes 8 n) (UInt64.ofNat n) := by
  have h : u64.Reads (bigEndianBytes 4 (n / 256 ^ 4) ++ bigEndianBytes 4 n)
      ((UInt32.ofNat (n / 256 ^ 4)).toUInt64 <<< 32 ||| (UInt32.ofNat n).toUInt64) :=
    (reads_u32 (n / 256 ^ 4)).bind (reads_u32 n).map
  rw [← bigEndianBytes_add] at h
  have hn : (UInt32.ofNat (n / 256 ^ 4)).toUInt64 <<< 32 ||| (UInt32.ofNat n).toUInt64
      = UInt64.ofNat n := by
    apply UInt64.toNat_inj.1
    rw [toNat_shiftLeft_or, UInt32.toNat_ofNat', UInt32.toNat_ofNat', UInt64.toNat_ofNat']
    omega
  rwa [hn] at h

/-- An index, in two bytes. -/
def indexBytes (n : UInt16) : List UInt8 := bigEndianBytes 2 n.toNat

/-- An index is read from its two bytes. -/
theorem reads_index (n : UInt16) : u16.Reads (indexBytes n) n := by
  have h := reads_u16 n.toNat
  rwa [UInt16.ofNat_toNat] at h

theorem reads_word32 (n : UInt32) : u32.Reads (bigEndianBytes 4 n.toNat) n := by
  have h := reads_u32 n.toNat
  rwa [UInt32.ofNat_toNat] at h

theorem reads_word64 (n : UInt64) : u64.Reads (bigEndianBytes 8 n.toNat) n := by
  have h := reads_u64 n.toNat
  rwa [UInt64.ofNat_toNat] at h

/-! ### Constants -/

namespace Constant

/-- A constant in a class file: a tag and what it holds. -/
def bytes : Constant → List UInt8
  | utf8 t => 1 :: (bigEndianBytes 2 (ModifiedUtf8.encode t).length ++ ModifiedUtf8.encode t)
  | integer v => 3 :: bigEndianBytes 4 v.toUInt32.toNat
  | float bits => 4 :: bigEndianBytes 4 bits.toNat
  | long v => 5 :: bigEndianBytes 8 v.toUInt64.toNat
  | double bits => 6 :: bigEndianBytes 8 bits.toNat
  | classRef n => 7 :: indexBytes n
  | string t => 8 :: indexBytes t
  | fieldRef m => 9 :: (indexBytes m.owner ++ indexBytes m.nameAndType)
  | methodRef m => 10 :: (indexBytes m.owner ++ indexBytes m.nameAndType)
  | interfaceMethodRef m => 11 :: (indexBytes m.owner ++ indexBytes m.nameAndType)
  | nameAndType n d => 12 :: (indexBytes n ++ indexBytes d)
  | methodHandle u r => 15 :: (u :: indexBytes r)
  | methodType d => 16 :: indexBytes d
  | dynamic b n => 17 :: (indexBytes b ++ indexBytes n)
  | invokeDynamic b n => 18 :: (indexBytes b ++ indexBytes n)
  | moduleRef n => 19 :: indexBytes n
  | packageRef n => 20 :: indexBytes n

/-- The slots that a constant takes. Behind a number of eight bytes one is left empty. -/
def slots : Constant → List (Option Constant)
  | long v => [some (long v), none]
  | double bits => [some (double bits), none]
  | c => [some c]

/-- Whether a constant can be written. The length of a text has two bytes. -/
def Fits : Constant → Prop
  | utf8 t => (ModifiedUtf8.encode t).length ≤ 65535
  | _ => True

instance : DecidablePred Fits
  | utf8 t => Nat.decLe (ModifiedUtf8.encode t).length 65535
  | integer _ | float _ | long _ | double _ | classRef _ | string _ | fieldRef _ | methodRef _
  | interfaceMethodRef _ | nameAndType _ _ | methodHandle _ _ | methodType _ | dynamic _ _
  | invokeDynamic _ _ | moduleRef _ | packageRef _ => .isTrue trivial

/-- A wide constant leaves the slot behind it empty. -/
theorem slots_of_isWide {c : Constant} (h : c.isWide = true) : c.slots = [some c, none] := by
  cases c <;> first | rfl | cases h

theorem slots_of_not_isWide {c : Constant} (h : c.isWide = false) : c.slots = [some c] := by
  cases c <;> first | rfl | cases h

end Constant

namespace ConstantPool

/-- A member is read from its two indices. -/
theorem reads_decodeMember (m : MemberRef) :
    decodeMember.Reads (indexBytes m.owner ++ indexBytes m.nameAndType) m :=
  (reads_index m.owner).bind (reads_index m.nameAndType).map

/-- A text is read by its length. -/
theorem reads_text {t : String} (h : (ModifiedUtf8.encode t).length ≤ 65535) :
    (decodeBody .utf8).Reads
      (bigEndianBytes 2 (ModifiedUtf8.encode t).length ++ ModifiedUtf8.encode t) (.utf8 t) := by
  have hlen : (UInt16.ofNat (ModifiedUtf8.encode t).length).toNat = (ModifiedUtf8.encode t).length :=
    UInt16.toNat_ofNat_of_lt' (Nat.lt_succ_of_le h)
  have htext := (reads_lift (ModifiedUtf8.decode_encode t)).map (g := Constant.utf8)
  have hbytes := (reads_take hlen.symm).bind
    (f := fun bytes => do return Constant.utf8 (← liftM (ModifiedUtf8.decode bytes))) htext
  rw [List.append_nil] at hbytes
  exact (reads_u16 _).bind hbytes

/-- Behind a known tag stands the body of its kind. -/
theorem reads_tagged (index : Nat) {tag : UInt8} {kind : ConstantKind} {body : List UInt8}
    {c : Constant} (ht : ConstantKind.ofTag? tag = some kind) (hb : (decodeBody kind).Reads body c) :
    (decodeConstant index).Reads (tag :: body) c := by
  refine (reads_u8 tag).bind ?_
  rw [ht]
  exact hb

/-- **One constant.** Each kind is told by its tag, and read to its end. -/
theorem reads_decodeConstant (index : Nat) {c : Constant} (hc : c.Fits) :
    (decodeConstant index).Reads c.bytes c := by
  -- Kind by kind. Signed numbers are written as unsigned ones.
  cases c with
  | utf8 t => exact reads_tagged index rfl (reads_text hc)
  | integer v =>
    have h : (decodeBody .integer).Reads _ (.integer v.toUInt32.toInt32) :=
      (reads_word32 v.toUInt32).map
    rw [Int32.toInt32_toUInt32] at h
    exact reads_tagged index rfl h
  | float bits => exact reads_tagged index rfl (reads_word32 bits).map
  | long v =>
    have h : (decodeBody .long).Reads _ (.long v.toUInt64.toInt64) :=
      (reads_word64 v.toUInt64).map
    rw [Int64.toInt64_toUInt64] at h
    exact reads_tagged index rfl h
  | double bits => exact reads_tagged index rfl (reads_word64 bits).map
  | classRef n => exact reads_tagged index rfl (reads_index n).map
  | string t => exact reads_tagged index rfl (reads_index t).map
  | fieldRef m => exact reads_tagged index rfl (reads_decodeMember m).map
  | methodRef m => exact reads_tagged index rfl (reads_decodeMember m).map
  | interfaceMethodRef m => exact reads_tagged index rfl (reads_decodeMember m).map
  | nameAndType n d => exact reads_tagged index rfl ((reads_index n).bind (reads_index d).map)
  | methodHandle u r => exact reads_tagged index rfl ((reads_u8 u).bind (reads_index r).map)
  | methodType d => exact reads_tagged index rfl (reads_index d).map
  | dynamic b n => exact reads_tagged index rfl ((reads_index b).bind (reads_index n).map)
  | invokeDynamic b n => exact reads_tagged index rfl ((reads_index b).bind (reads_index n).map)
  | moduleRef n => exact reads_tagged index rfl (reads_index n).map
  | packageRef n => exact reads_tagged index rfl (reads_index n).map

/-- The pool of some constants. Slot 0 is unused. -/
def ofConstants (cs : List Constant) : ConstantPool := ⟨(none :: cs.flatMap Constant.slots).toArray⟩

/-- Some bytes are read as the given constants, one behind the other. -/
inductive Row : List UInt8 → List Constant → Prop
  | nil : Row [] []
  | cons {front bytes : List UInt8} {c : Constant} {cs : List Constant} :
    (∀ index, (decodeConstant index).Reads front c) → Row bytes cs → Row (front ++ bytes) (c :: cs)

/-- Constants are written in a row. -/
theorem row_flatMap_bytes {cs : List Constant} (hfit : ∀ c ∈ cs, c.Fits) :
    Row (cs.flatMap Constant.bytes) cs := by
  induction cs with
  | nil => exact .nil
  | cons c cs ih =>
    rw [List.flatMap_cons]
    refine .cons (fun index => reads_decodeConstant index (hfit c (List.mem_cons_self ..))) ?_
    exact ih fun c hc => hfit c (List.mem_cons_of_mem _ hc)

/-- **Constants in a row.** They fill their slots, as long as there is room for them. -/
theorem decodeSlots_row {count : Nat} {front : List UInt8} {cs : List Constant}
    (hrow : Row front cs) (slots : Array (Option Constant))
    (hroom : slots.size + (cs.flatMap Constant.slots).length ≤ count) (rest : List UInt8)
    (offset : Nat) :
    decodeSlots count slots ⟨front ++ rest, offset⟩
      = decodeSlots count (slots ++ (cs.flatMap Constant.slots).toArray)
          ⟨rest, offset + front.length⟩ := by
  -- Along the constants. The slots that are filled by then give the index of the next one.
  induction hrow generalizing slots offset with
  | nil => simp
  | @cons front bytes c cs hc _ ih =>
    rw [List.flatMap_cons, List.length_append] at hroom
    have hread := hc slots.size (bytes ++ rest) offset
    cases hw : c.isWide with
    | true =>
      rw [Constant.slots_of_isWide hw] at hroom
      simp only [List.length_cons, List.length_nil] at hroom
      rw [decodeSlots, if_pos (by omega), List.append_assoc, bind_of_eq_ok hread, if_pos hw,
        if_pos (by omega), ih _ (by simp only [Array.size_push]; omega)]
      simp [Constant.slots_of_isWide hw, Nat.add_assoc]
    | false =>
      rw [Constant.slots_of_not_isWide hw] at hroom
      simp only [List.length_cons, List.length_nil] at hroom
      rw [decodeSlots, if_pos (by omega), List.append_assoc, bind_of_eq_ok hread,
        if_neg (by simp [hw]), ih _ (by simp only [Array.size_push]; omega)]
      simp [Constant.slots_of_not_isWide hw, Nat.add_assoc]

/-- **All constants.** They are read one behind the other, as long as their slots are counted. -/
theorem reads_decodeSlots {count : Nat} {cs : List Constant} (hfit : ∀ c ∈ cs, c.Fits)
    (slots : Array (Option Constant))
    (hcount : slots.size + (cs.flatMap Constant.slots).length = count) :
    (decodeSlots count slots).Reads (cs.flatMap Constant.bytes)
      (slots ++ (cs.flatMap Constant.slots).toArray) := by
  intro rest offset
  have hfull : ¬ (slots ++ (cs.flatMap Constant.slots).toArray).size < count := by
    simp only [Array.size_append, List.size_toArray]
    omega
  rw [decodeSlots_row (row_flatMap_bytes hfit) slots (Nat.le_of_eq hcount), decodeSlots,
    if_neg hfull]
  rfl

/-- The constants behind the number of their slots, where slot 0 counts. -/
def bytesOf (cs : List Constant) : List UInt8 :=
  bigEndianBytes 2 ((cs.flatMap Constant.slots).length + 1) ++ cs.flatMap Constant.bytes

/-- The pool is read as the one of its constants. -/
theorem reads_decode {cs : List Constant} (hfit : ∀ c ∈ cs, c.Fits)
    (hslots : (cs.flatMap Constant.slots).length ≤ 65534) :
    decode.Reads (bytesOf cs) (ofConstants cs) := by
  have hcount : (UInt16.ofNat ((cs.flatMap Constant.slots).length + 1)).toNat
      = (cs.flatMap Constant.slots).length + 1 :=
    UInt16.toNat_ofNat_of_lt' (Nat.lt_succ_of_le (Nat.succ_le_succ hslots))
  -- The count is not zero, as the unused slot is counted.
  have hpos : UInt16.ofNat ((cs.flatMap Constant.slots).length + 1) ≠ 0 := by
    intro h
    rw [h] at hcount
    simp at hcount
  have h := (reads_decodeSlots hfit #[none] (Nat.add_comm ..)).map (g := ConstantPool.mk)
  refine (reads_u16 _).bind ?_
  rw [if_neg hpos, hcount]
  simpa [ofConstants] using h

end ConstantPool

/-! ### The front part -/

/-- What stands in the front part of a class file, within the limits that its layout sets. -/
structure ClassFront where
  minor : UInt16
  major : UInt16
  constants : List Constant
  accessFlags : UInt16
  thisClass : UInt16
  /-- Index 0 stands for no superclass. -/
  superclass : UInt16
  interfaces : List UInt16
  le_major : 45 ≤ major
  fits : ∀ c ∈ constants, c.Fits
  length_slots_le : (constants.flatMap Constant.slots).length ≤ 65534
  length_interfaces_le : interfaces.length ≤ 65535

namespace ClassFront

/-- The constants by index. -/
def pool (w : ClassFront) : ConstantPool := .ofConstants w.constants

/-- The front part as it is written. -/
def bytes (w : ClassFront) : List UInt8 :=
  [0xca, 0xfe, 0xba, 0xbe] ++ indexBytes w.minor ++ indexBytes w.major
    ++ ConstantPool.bytesOf w.constants
    ++ indexBytes w.accessFlags ++ indexBytes w.thisClass ++ indexBytes w.superclass
    ++ bigEndianBytes 2 w.interfaces.length ++ w.interfaces.flatMap indexBytes

/-- What a front part says: its constants, and what its indices name. -/
structure Says (w : ClassFront) (h : ClassHeader) : Prop where
  pool : h.pool = w.pool
  thisClass : w.pool.NamesClass w.thisClass h.thisClass
  superclass : w.superclass = 0 ∧ h.superclass = none
    ∨ ∃ n, h.superclass = some n ∧ w.pool.NamesAncestor w.superclass n
  interfaces : List.Forall₂ w.pool.NamesAncestor w.interfaces h.interfaces

end ClassFront

namespace ClassHeader

theorem reads_decodeSuperclass {cs : List Constant} {index : UInt16}
    {superclass : Option ClassName}
    (h : index = 0 ∧ superclass = none
      ∨ ∃ n, superclass = some n ∧ (ConstantPool.ofConstants cs).NamesAncestor index n) :
    (decodeSuperclass (.ofConstants cs)).Reads (indexBytes index) superclass := by
  rw [← List.append_nil (indexBytes index)]
  refine (reads_index index).bind ?_
  rcases h with ⟨rfl, rfl⟩ | ⟨n, rfl, hn⟩
  · exact reads_pure none
  · -- Slot 0 holds nothing, so an index that names a class is another one.
    have hne : index ≠ 0 := by
      rintro rfl
      obtain ⟨⟨name, hslot, -⟩, -⟩ := hn
      simp [ConstantPool.ofConstants] at hslot
    rw [if_neg hne]
    exact (reads_lift (ancestorAt_eq_ok_iff.2 hn)).map

/-- Interfaces are read in the order in which they are listed. -/
theorem reads_decodeInterfaces {p : ConstantPool} {indices : List UInt16} {names : List ClassName}
    (h : List.Forall₂ p.NamesAncestor indices names) (done : List ClassName) :
    (decodeInterfaces p done indices.length).Reads (indices.flatMap indexBytes)
      (done.reverse ++ names) := by
  induction h generalizing done with
  | nil =>
    rw [List.append_nil]
    exact reads_pure done.reverse
  | @cons index n indices names hn _ ih =>
    rw [List.flatMap_cons, List.length_cons]
    refine (reads_index index).bind ?_
    have hrest := ih (n :: done)
    rw [List.reverse_cons, List.append_assoc, List.singleton_append] at hrest
    exact (reads_lift (ancestorAt_eq_ok_iff.2 hn)).bind hrest

/-- **The front part.** It is read to its end, as what it says. -/
theorem reads_decoder {w : ClassFront} {h : ClassHeader} (hs : w.Says h) :
    decoder.Reads w.bytes h := by
  have hmagic : u32.Reads [0xca, 0xfe, 0xba, 0xbe] magic := reads_word32 magic
  have hmajor : ¬ w.major < oldestMajor := by
    rw [UInt16.not_lt]
    exact w.le_major
  have hcount : (UInt16.ofNat w.interfaces.length).toNat = w.interfaces.length :=
    UInt16.toNat_ofNat_of_lt' (Nat.lt_succ_of_le w.length_interfaces_le)
  simp only [ClassFront.bytes, List.append_assoc]
  -- Part by part; the checks in between are passed by what a front part carries along.
  refine hmagic.bind ?_
  rw [if_neg (by simp)]
  refine (reads_index w.minor).bind ((reads_index w.major).bind ?_)
  rw [if_neg hmajor]
  refine (ConstantPool.reads_decode w.fits w.length_slots_le).bind ?_
  refine (reads_index w.accessFlags).bind ((reads_index w.thisClass).bind ?_)
  refine (reads_lift (ConstantPool.className_eq_ok_iff.2 hs.thisClass)).bind ?_
  refine (reads_decodeSuperclass hs.superclass).bind ((reads_u16 _).bind ?_)
  rw [hcount]
  have hrest := (reads_decodeInterfaces hs.interfaces []).map
    (g := fun interfaces => ClassHeader.mk h.thisClass h.superclass interfaces w.pool)
  have hall : ⟨h.thisClass, h.superclass, h.interfaces, w.pool⟩ = h := by rw [← hs.pool]
  rw [List.reverse_nil, List.nil_append, hall] at hrest
  exact hrest

end ClassHeader

/-! ### Whole files -/

namespace Sample

/-- The front part of a class with a superclass, an interface and a number of eight bytes. -/
def front : ClassFront where
  minor := 0
  major := 52
  constants := [.classRef 2, .utf8 "App", .long 7, .classRef 6, .utf8 "Base", .classRef 8, .utf8 "Api"]
  accessFlags := 0x21
  thisClass := 1
  superclass := 5
  interfaces := [7]
  le_major := by decide
  fits := by decide
  length_slots_le := by decide
  length_interfaces_le := by decide

/-- What it says. -/
def header : ClassHeader := ⟨"App", some ⟨"Base"⟩, [⟨"Api"⟩], front.pool⟩

/-- Each index of the sample reaches the name that it stands for. -/
theorem front_says_header : front.Says header where
  pool := rfl
  thisClass := ⟨2, rfl, rfl⟩
  superclass := .inr ⟨_, rfl, ⟨6, rfl, rfl⟩, by decide, by decide⟩
  interfaces := .cons ⟨⟨8, rfl, rfl⟩, by decide, by decide⟩ .nil

/-- A file with this front part. -/
def content : ByteArray := ⟨(front.bytes ++ [0, 1]).toArray⟩

/-- The bytes behind the front part are not looked at. -/
theorem decodeFile_content (name : ClassName) :
    ClassPath.decodeFile name content = .ok ⟨header, name⟩ := by
  have h := (ClassHeader.reads_decoder front_says_header).runOn [0, 1]
  exact ClassPath.decodeFile_eq_ok_iff.2 ⟨h, rfl⟩

end Sample

namespace ClassPath

/-- **A class file is read as it was written.** Whatever stands behind its front part, a file says what
    its front part says, with every constant in its slot. -/
theorem decodeFile_bytes {w : ClassFront} {h : ClassHeader} (hs : w.Says h) (name : ClassName)
    (trailing : List UInt8) :
    decodeFile name ⟨(w.bytes ++ trailing).toArray⟩ = .ok ⟨h, name⟩ :=
  decodeFile_eq_ok_iff.2 ⟨(ClassHeader.reads_decoder hs).runOn trailing, rfl⟩

/-- The names that the indices of a front part reach, two entries away, with a wide constant before
    some of them. -/
theorem decodeFile_bytes_front :
    Sample.front.Says Sample.header
      ∧ decodeFile ⟨"App"⟩ ⟨(Sample.front.bytes ++ [0, 1]).toArray⟩ = .ok ⟨Sample.header, ⟨"App"⟩⟩ :=
  ⟨Sample.front_says_header, decodeFile_bytes Sample.front_says_header _ _⟩

end ClassPath

end PrimaryDex
