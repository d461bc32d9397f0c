import PrimaryDex.ClassFile.Decoder
import PrimaryDex.ClassFile.ModifiedUtf8

namespace PrimaryDex

/-!
# The constant pool

A pool is a row of slots. Slot 0 is unused, and so is the slot behind a wide constant; every other
slot holds a constant.

* `ConstantPool.decode` — reads the declared number of slots;
* `ConstantPool.get`, `ConstantPool.entries` — one constant, and all of them with their indices;
* `ConstantPool.utf8`, `className`, `nameAndType`, `memberDescriptor` — what an index or a member
  names, or the fault on the way to it.
-/

/-- The constants of a class file by index. -/
structure ConstantPool where
  slots : Array (Option Constant)
  deriving DecidableEq, Inhabited

namespace ConstantPool

/-! ### Decoding -/

/-- Reads the two indices of a member reference. -/
def decodeMember : Decoder MemberRef := do
  let owner ← Decoder.u16
  let nameAndType ← Decoder.u16
  return ⟨owner, nameAndType⟩

/-- Reads what follows the tag of a constant. -/
def decodeBody : ConstantKind → Decoder Constant
  | .utf8 => do
    let length ← Decoder.u16
    let bytes ← Decoder.take length.toNat
    return .utf8 (← ModifiedUtf8.decode bytes)
  | .integer => return .integer (← Decoder.u32).toInt32
  | .float => return .float (← Decoder.u32)
  | .long => return .long (← Decoder.u64).toInt64
  | .double => return .double (← Decoder.u64)
  | .classRef => return .classRef (← Decoder.u16)
  | .string => return .string (← Decoder.u16)
  | .fieldRef => return .fieldRef (← decodeMember)
  | .methodRef => return .methodRef (← decodeMember)
  | .interfaceMethodRef => return .interfaceMethodRef (← decodeMember)
  | .nameAndType => do
    let name ← Decoder.u16
    let descriptor ← Decoder.u16
    return .nameAndType name descriptor
  | .methodHandle => do
    let use ← Decoder.u8
    let reference ← Decoder.u16
    return .methodHandle use reference
  | .methodType => return .methodType (← Decoder.u16)
  | .dynamic => do
    let bootstrap ← Decoder.u16
    let nameAndType ← Decoder.u16
    return .dynamic bootstrap nameAndType
  | .invokeDynamic => do
    let bootstrap ← Decoder.u16
    let nameAndType ← Decoder.u16
    return .invokeDynamic bootstrap nameAndType
  | .moduleRef => return .moduleRef (← Decoder.u16)
  | .packageRef => return .packageRef (← Decoder.u16)

/-- Reads the constant for slot `index`. -/
def decodeConstant (index : Nat) : Decoder Constant := do
  let tag ← Decoder.u8
  match ConstantKind.ofTag? tag with
  | some kind => decodeBody kind
  | none => throw (.unknownTag tag index)

/-- Reads further slots, up to `count` of them in all. -/
def decodeSlots (count : Nat) (slots : Array (Option Constant)) :
    Decoder (Array (Option Constant)) := do
  if slots.size < count then
    let c ← decodeConstant slots.size
    if c.isWide then
      if slots.size + 1 < count then decodeSlots count ((slots.push (some c)).push none)
      else throw (.wideOverflow slots.size)
    else decodeSlots count (slots.push (some c))
  else return slots
termination_by count - slots.size
decreasing_by all_goals simp only [Array.size_push]; omega

/-- Reads the number of slots and the slots. -/
def decode : Decoder ConstantPool := do
  let count ← Decoder.u16
  if count = 0 then throw .emptyPoolCount
  return ⟨← decodeSlots count.toNat #[none]⟩

/-! ### Reading -/

/-- The number of slots. -/
def size (p : ConstantPool) : Nat := p.slots.size

/-- Whether there is no slot besides the unused slot 0. -/
def isEmpty (p : ConstantPool) : Bool := p.size ≤ 1

/-- The constant at an index. -/
def get (p : ConstantPool) (index : UInt16) : Except FormatError Constant :=
  match p.slots[index.toNat]? with
  | some (some c) => .ok c
  | _ => .error (.invalidIndex index)

/-- The constants with their indices, in order. -/
def entries (p : ConstantPool) : List (UInt16 × Constant) :=
  p.slots.toList.zipIdx.filterMap fun (slot, i) => slot.map fun c => (UInt16.ofNat i, c)

/-- The text at an index. -/
def utf8 (p : ConstantPool) (index : UInt16) : Except FormatError String := do
  match ← p.get index with
  | .utf8 text => return text
  | other => throw (.mistyped index .utf8 other)

/-- The internal name of the class at an index. -/
def className (p : ConstantPool) (index : UInt16) : Except FormatError String := do
  match ← p.get index with
  | .classRef name => p.utf8 name
  | other => throw (.mistyped index .classRef other)

/-- The name and the descriptor of the name and type at an index. -/
def nameAndType (p : ConstantPool) (index : UInt16) : Except FormatError (String × String) := do
  match ← p.get index with
  | .nameAndType name descriptor => return (← p.utf8 name, ← p.utf8 descriptor)
  | other => throw (.mistyped index .nameAndType other)

/-- The descriptor of a member, whose class must have a name. -/
def memberDescriptor (p : ConstantPool) (m : MemberRef) : Except FormatError String := do
  let _ ← p.className m.owner
  let (_, descriptor) ← p.nameAndType m.nameAndType
  return descriptor

end ConstantPool

end PrimaryDex
