import PrimaryDex.ClassFile.Constant

namespace PrimaryDex

/-!
# What can be wrong in a class file

`FormatError` lists the causes for which a class file or one of its descriptors is refused, and
`FormatError.message` words them.
-/

/-- A fault in the structure of a class file. -/
inductive FormatError where
  /-- The bytes end before the `wanted` ones at `offset`. -/
  | unexpectedEnd (offset wanted : Nat)
  | badMagic (found : UInt32)
  | unsupportedVersion (major minor : UInt16)
  | emptyPoolCount
  | unknownTag (tag : UInt8) (index : Nat)
  /-- The second slot of a wide constant lies beyond the pool. -/
  | wideOverflow (index : Nat)
  /-- The index points at no constant. -/
  | invalidIndex (index : UInt16)
  | mistyped (index : UInt16) (expected : ConstantKind) (found : Constant)
  | truncatedSequence (position : Nat)
  | invalidByte (byte : UInt8) (position : Nat)
  /-- An ancestor is named by something that is no class or interface. -/
  | notAClass (name : String) (index : UInt16)
  | emptyClassName
  | malformedType (descriptor : String)
  | malformedMethod (descriptor : String)
  deriving DecidableEq

namespace FormatError

/-- A number with `0x` and at least `width` digits. -/
def hexNumber (width n : Nat) : String :=
  String.ofList ('0' :: 'x' :: Text.hex width n)

/-- The wording of a fault. -/
def message : FormatError → String
  | unexpectedEnd offset wanted =>
    s!"unexpected end of class file at offset {offset} (wanted {wanted} bytes)"
  | badMagic found => "bad magic " ++ hexNumber 8 found.toNat
  | unsupportedVersion major minor => s!"unsupported class file version {major}.{minor}"
  | emptyPoolCount => "constant pool count is zero"
  | unknownTag tag index => s!"unknown constant pool tag {tag} at index {index}"
  | wideOverflow index => s!"8-byte constant at index {index} overflows the constant pool"
  | invalidIndex index => s!"invalid constant pool index {index}"
  | mistyped index expected found =>
    s!"constant pool index {index} should be {expected.label}, found {found.describe}"
  | truncatedSequence position => s!"truncated modified UTF-8 sequence at byte {position}"
  | invalidByte byte position =>
    "invalid modified UTF-8 byte " ++ hexNumber 2 byte.toNat ++ s!" at {position}"
  | notAClass name index => s!"\"{name}\" at index {index} is not a class or interface name"
  | emptyClassName => "empty class name"
  | malformedType descriptor => s!"malformed type descriptor \"{descriptor}\""
  | malformedMethod descriptor => s!"malformed method descriptor \"{descriptor}\""

end FormatError

end PrimaryDex
