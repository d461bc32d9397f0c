import PrimaryDex.ClassPath.Basic
import PrimaryDex.Proofs.ClassFile.Writing

namespace PrimaryDex

/-!
# Class files that break off

Each decoder of a class file is steady, so a class file that is accepted has a front part that decides
all: with that part in front, every file is accepted and says the same, and without a piece of that
part no file is accepted.

* `ConstantPool.steady_decodeBody`, `steady_decodeConstant`, `steady_decodeSlots` — up from the kinds of
  constants, each slot behind the others;
* `ClassHeader.steady_decoder` — the whole front part;
* `ClassPath.exists_front_of_decodeFile` — what that means for the files of a class path.
-/

open Decoder

namespace ConstantPool

theorem steady_decodeMember : decodeMember.Steady :=
  steady_u16.bind fun _ => steady_u16.map

/-- The body of each kind of constant is read from numbers of fixed width, but for a text, which says
    first how long it is. -/
theorem steady_decodeBody (kind : ConstantKind) : (decodeBody kind).Steady := by
  cases kind with
  | utf8 => exact steady_u16.bind fun _ => (steady_take _).bind fun bytes => (steady_lift _).map
  | integer => exact steady_u32.map
  | float => exact steady_u32.map
  | long => exact steady_u64.map
  | double => exact steady_u64.map
  | classRef => exact steady_u16.map
  | string => exact steady_u16.map
  | fieldRef => exact steady_decodeMember.map
  | methodRef => exact steady_decodeMember.map
  | interfaceMethodRef => exact steady_decodeMember.map
  | nameAndType => exact steady_u16.bind fun _ => steady_u16.map
  | methodHandle => exact steady_u8.bind fun _ => steady_u16.map
  | methodType => exact steady_u16.map
  | dynamic => exact steady_u16.bind fun _ => steady_u16.map
  | invokeDynamic => exact steady_u16.bind fun _ => steady_u16.map
  | moduleRef => exact steady_u16.map
  | packageRef => exact steady_u16.map

/-- An unknown tag is refused, and of the others the body is read. -/
theorem steady_decodeConstant (index : Nat) : (decodeConstant index).Steady := by
  refine steady_u8.bind fun tag => ?_
  split
  · exact steady_decodeBody _
  · exact steady_throw _

/-- The slots are filled one by one, and their number is known beforehand. -/
theorem steady_decodeSlots (count : Nat) (slots : Array (Option Constant)) :
    (decodeSlots count slots).Steady := by
  -- By the recursion over the slots that are filled: a wide constant fills two, any other one.
  induction slots using decodeSlots.induct count with
  | case1 slots h wide narrow =>
    rw [decodeSlots, if_pos h]
    refine (steady_decodeConstant _).bind fun c => ?_
    refine .ite ?_ (narrow c)
    split
    · rename_i hw
      exact wide c hw
    · exact steady_throw _
  | case2 slots h =>
    rw [decodeSlots, if_neg h]
    exact steady_pure _

/-- The count of the pool stands in front of it. -/
theorem steady_decode : decode.Steady :=
  steady_u16.bind fun _ => .check (steady_decodeSlots _ _).map

end ConstantPool

namespace ClassHeader

theorem steady_decodeSuperclass (pool : ConstantPool) : (decodeSuperclass pool).Steady :=
  steady_u16.bind fun _ => .ite (steady_pure _) (steady_lift _).map

/-- One index after the other is looked up. -/
theorem steady_decodeInterfaces (pool : ConstantPool) (done : List ClassName) (n : Nat) :
    (decodeInterfaces pool done n).Steady := by
  induction n generalizing done with
  | zero => exact steady_pure _
  | succ n ih => exact steady_u16.bind fun index => (steady_lift _).bind fun name => ih (name :: done)

/-- The parts stand one behind the other, and the checks in between only look at what was read. -/
theorem steady_decoder : decoder.Steady := by
  refine steady_u32.bind fun found => .check ?_
  refine steady_u16.bind fun minor => steady_u16.bind fun major => .check ?_
  refine ConstantPool.steady_decode.bind fun pool => steady_u16.bind fun access => ?_
  refine steady_u16.bind fun thisIndex => (steady_lift _).bind fun thisClass => ?_
  refine (steady_decodeSuperclass pool).bind fun superclass => steady_u16.bind fun count => ?_
  exact (steady_decodeInterfaces pool [] count.toNat).map

end ClassHeader

/-! ### Files of a class path -/

/-- The first bytes of a file are those of its list. -/
theorem toList_extract (content : ByteArray) (n : Nat) :
    (content.extract 0 n).data.toList = content.data.toList.take n := by
  simp

namespace ClassPath

/-- **The front part decides.** Of a file that is accepted, some first bytes decide: every file that
    starts with them is accepted as the same class file, and if less of them is there, the file is
    refused, since it ends before bytes that are wanted. -/
theorem exists_front_of_decodeFile {name : ClassName} {content : ByteArray} {c : ClassFile}
    (h : decodeFile name content = .ok c) :
    ∃ n ≤ content.size,
      (∀ other : ByteArray, other.extract 0 n = content.extract 0 n → decodeFile name other = .ok c)
        ∧ ∀ k < n, ∃ start wanted,
          decodeFile name (content.extract 0 k) = .error (.badFormat name (.unexpectedEnd start wanted))
            ∧ start ≤ k ∧ k < start + wanted := by
  obtain ⟨hd, rfl⟩ := decodeFile_eq_ok_iff.1 h
  obtain ⟨front, rest, hb, hreads, hout⟩ := ClassHeader.steady_decoder.exists_front hd
  have hfront : content.data.toList.take front.length = front := by
    rw [hb, List.take_left]
  refine ⟨front.length, ?_, fun other ho => ?_, fun k hk => ?_⟩
  · have hsize : content.size = (front ++ rest).length := hb ▸ rfl
    rw [hsize, List.length_append]
    omega
  · have htake : other.data.toList.take front.length = front := by
      rw [← toList_extract, ho, toList_extract, hfront]
    have hother := List.take_append_drop front.length other.data.toList
    rw [htake] at hother
    exact decodeFile_eq_ok_iff.2 ⟨hother ▸ hreads.runOn _, rfl⟩
  · -- The first `k` bytes are a start of the front part, without its last bytes.
    have hshort : (content.extract 0 k).data.toList = front.take k := by
      rw [toList_extract, hb, List.take_append_of_le_length (Nat.le_of_lt hk)]
    have hlen : (front.take k).length = k := by
      rw [List.length_take]
      omega
    have hmore : front.drop k ≠ [] := by
      intro hnil
      rw [List.drop_eq_nil_iff] at hnil
      omega
    rw [← List.take_append_drop k front] at hout
    obtain ⟨start, wanted, he, hle, hlt⟩ := hout.runOn hmore
    rw [hlen] at hle hlt
    exact ⟨start, wanted, decodeFile_eq_badFormat (hshort ▸ he), hle, hlt⟩

/-- Of a file that goes on behind its front part. -/
theorem exists_front_of_decodeFile_front :
    decodeFile ⟨"App"⟩ Sample.content = .ok ⟨Sample.header, ⟨"App"⟩⟩
      ∧ ∃ n ≤ Sample.content.size,
        (∀ other : ByteArray, other.extract 0 n = Sample.content.extract 0 n →
            decodeFile ⟨"App"⟩ other = .ok ⟨Sample.header, ⟨"App"⟩⟩)
          ∧ ∀ k < n, ∃ start wanted,
            decodeFile ⟨"App"⟩ (Sample.content.extract 0 k)
                = .error (.badFormat ⟨"App"⟩ (.unexpectedEnd start wanted))
              ∧ start ≤ k ∧ k < start + wanted :=
  ⟨Sample.decodeFile_content _, exists_front_of_decodeFile (Sample.decodeFile_content _)⟩

end ClassPath

end PrimaryDex
