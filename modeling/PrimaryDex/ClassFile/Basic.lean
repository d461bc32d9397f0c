import PrimaryDex.ClassFile.ConstantPool
import PrimaryDex.ClassName

namespace PrimaryDex

/-!
# Class files

What a class says about other classes stands in the front part of its file, so decoding ends behind
the table of interfaces: fields, methods and attributes are not looked at.

* `ClassHeader` — the decoded part, with `ClassHeader.decode`;
* `ClassHeader.ancestors` — the superclass, if any, and the interfaces;
* `ClassFile` — a header together with the name under which the file was found.
-/

/-- The part of a class file that names other classes. -/
structure ClassHeader where
  /-- The internal name that the file gives itself. -/
  thisClass : String
  superclass : Option ClassName
  interfaces : List ClassName
  pool : ConstantPool
  deriving DecidableEq, Inhabited

namespace ClassHeader

/-- The first four bytes of a class file. -/
def magic : UInt32 := 0xcafebabe

/-- The oldest version in use, that of Java 1.1. -/
def oldestMajor : UInt16 := 45

/-- The class or interface at an index of the pool. Arrays and the empty name are neither. -/
def ancestorAt (pool : ConstantPool) (index : UInt16) : Except FormatError ClassName := do
  let internal ← pool.className index
  if internal.toList = [] ∨ internal.toList.head? = some '[' then throw (.notAClass internal index)
  return ⟨internal⟩

/-- Reads the superclass, where index 0 stands for none. -/
def decodeSuperclass (pool : ConstantPool) : Decoder (Option ClassName) := do
  let index ← Decoder.u16
  if index = 0 then return none
  return some (← ancestorAt pool index)

/-- Reads `n` interfaces behind those in `done`, the latest first. -/
def decodeInterfaces (pool : ConstantPool) (done : List ClassName) : Nat → Decoder (List ClassName)
  | 0 => return done.reverse
  | n + 1 => do
    let index ← Decoder.u16
    decodeInterfaces pool ((← ancestorAt pool index) :: done) n

/-- Reads the front part of a class file. -/
def decoder : Decoder ClassHeader := do
  let found ← Decoder.u32
  if found ≠ magic then throw (.badMagic found)
  let minor ← Decoder.u16
  let major ← Decoder.u16
  if major < oldestMajor then throw (.unsupportedVersion major minor)
  let pool ← ConstantPool.decode
  let _accessFlags ← Decoder.u16
  let thisIndex ← Decoder.u16
  let thisClass ← pool.className thisIndex
  let superclass ← decodeSuperclass pool
  let count ← Decoder.u16
  let interfaces ← decodeInterfaces pool [] count.toNat
  return { thisClass, superclass, interfaces, pool }

/-- Decodes the bytes of a class file. What follows the interfaces is free. -/
def decode (bytes : List UInt8) : Except FormatError ClassHeader := decoder.runOn bytes

/-- The superclass and then the interfaces, as declared. -/
def ancestors (h : ClassHeader) : List ClassName :=
  h.superclass.toList ++ h.interfaces

end ClassHeader

/-- A class file as it was found. -/
structure ClassFile extends ClassHeader where
  /-- The name under which the file was found. -/
  name : ClassName
  deriving DecidableEq, Inhabited

/-- Decodes the bytes of the class file found under `name`. -/
def ClassFile.decode (name : ClassName) (bytes : List UInt8) : Except FormatError ClassFile :=
  (fun h => { toClassHeader := h, name }) <$> ClassHeader.decode bytes

end PrimaryDex
