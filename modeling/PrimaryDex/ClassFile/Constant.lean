import PrimaryDex.Decimal.Layout
import PrimaryDex.Text.Quoted

namespace PrimaryDex

/-!
# Constants of a class file

* `ConstantKind` — the seventeen kinds, each with its tag byte and its label;
* `Constant` — a constant with what it holds; indices point into the same constant pool;
* `Constant.describe` — the text that error messages show for a constant.

Floats are kept as their bits, so equal constants are those with equal encodings.
-/

/-- The kinds of constants. -/
inductive ConstantKind where
  | utf8 | integer | float | long | double | classRef | string | fieldRef | methodRef
  | interfaceMethodRef | nameAndType | methodHandle | methodType | dynamic | invokeDynamic
  | moduleRef | packageRef
  deriving DecidableEq

namespace ConstantKind

/-- The byte in front of a constant of this kind. -/
def tag : ConstantKind → UInt8
  | utf8 => 1
  | integer => 3
  | float => 4
  | long => 5
  | double => 6
  | classRef => 7
  | string => 8
  | fieldRef => 9
  | methodRef => 10
  | interfaceMethodRef => 11
  | nameAndType => 12
  | methodHandle => 15
  | methodType => 16
  | dynamic => 17
  | invokeDynamic => 18
  | moduleRef => 19
  | packageRef => 20

/-- All kinds, by tag. -/
def all : List ConstantKind :=
  [utf8, integer, float, long, double, classRef, string, fieldRef, methodRef, interfaceMethodRef,
    nameAndType, methodHandle, methodType, dynamic, invokeDynamic, moduleRef, packageRef]

/-- The kind with the given tag. -/
def ofTag? (t : UInt8) : Option ConstantKind :=
  all.find? (·.tag = t)

/-- The kind's name in messages. -/
def label : ConstantKind → String
  | utf8 => "Utf8"
  | integer => "Integer"
  | float => "Float"
  | long => "Long"
  | double => "Double"
  | classRef => "Class"
  | string => "String"
  | fieldRef => "FieldRef"
  | methodRef => "MethodRef"
  | interfaceMethodRef => "InterfaceMethodRef"
  | nameAndType => "NameAndType"
  | methodHandle => "MethodHandle"
  | methodType => "MethodType"
  | dynamic => "Dynamic"
  | invokeDynamic => "InvokeDynamic"
  | moduleRef => "Module"
  | packageRef => "Package"

/-- Whether constants of this kind take two slots of the pool. -/
def isWide : ConstantKind → Bool
  | long | double => true
  | _ => false

end ConstantKind

/-- A field or method of a class, by the index of its class and of its name and type. -/
structure MemberRef where
  owner : UInt16
  nameAndType : UInt16
  deriving DecidableEq

/-- A constant. -/
inductive Constant where
  | utf8 (text : String)
  | integer (value : Int32)
  | float (bits : UInt32)
  | long (value : Int64)
  | double (bits : UInt64)
  | classRef (name : UInt16)
  | string (text : UInt16)
  | fieldRef (member : MemberRef)
  | methodRef (member : MemberRef)
  | interfaceMethodRef (member : MemberRef)
  | nameAndType (name descriptor : UInt16)
  | methodHandle (use : UInt8) (reference : UInt16)
  | methodType (descriptor : UInt16)
  | dynamic (bootstrap nameAndType : UInt16)
  | invokeDynamic (bootstrap nameAndType : UInt16)
  | moduleRef (name : UInt16)
  | packageRef (name : UInt16)
  deriving DecidableEq

namespace Constant

/-- The kind of a constant. -/
def kind : Constant → ConstantKind
  | utf8 _ => .utf8
  | integer _ => .integer
  | float _ => .float
  | long _ => .long
  | double _ => .double
  | classRef _ => .classRef
  | string _ => .string
  | fieldRef _ => .fieldRef
  | methodRef _ => .methodRef
  | interfaceMethodRef _ => .interfaceMethodRef
  | nameAndType _ _ => .nameAndType
  | methodHandle _ _ => .methodHandle
  | methodType _ => .methodType
  | dynamic _ _ => .dynamic
  | invokeDynamic _ _ => .invokeDynamic
  | moduleRef _ => .moduleRef
  | packageRef _ => .packageRef

/-- Whether the constant takes two slots of the pool. -/
def isWide (c : Constant) : Bool := c.kind.isWide

/-! ### Descriptions -/

/-- Floats are positional from 1e-4 up to, but without, 1e16. -/
def floatLayout : Decimal.Layout where
  leastPositional := -4
  greatestPositional := 15
  tie := .greater
  plusSign := false
  infinity := "inf"
  notANumber := "NaN"

/-- A label with one value in round brackets. -/
def describeValue (label value : String) : String :=
  label ++ "(" ++ value ++ ")"

/-- A label with named fields in curly brackets. -/
def describeFields (label : String) (fields : List (String × Nat)) : String :=
  label ++ " \x7b " ++ ", ".intercalate (fields.map fun (n, v) => n ++ ": " ++ toString v) ++ " \x7d"

/-- A member reference with its two indices. -/
def describeMember (m : MemberRef) : String :=
  describeFields "MemberRef"
    [("class_index", m.owner.toNat), ("name_and_type_index", m.nameAndType.toNat)]

/-- The constant as error messages show it. -/
def describe (c : Constant) : String :=
  let label := c.kind.label
  match c with
  | utf8 t => describeValue label (Text.quoted t)
  | integer v => describeValue label (toString v.toInt)
  | float bits => describeValue label (floatLayout.text .single bits.toNat)
  | long v => describeValue label (toString v.toInt)
  | double bits => describeValue label (floatLayout.text .double bits.toNat)
  | fieldRef m | methodRef m | interfaceMethodRef m => describeValue label (describeMember m)
  | classRef n | moduleRef n | packageRef n => describeFields label [("name_index", n.toNat)]
  | string t => describeFields label [("string_index", t.toNat)]
  | nameAndType n d =>
    describeFields label [("name_index", n.toNat), ("descriptor_index", d.toNat)]
  | methodHandle u r => describeFields label [("kind", u.toNat), ("reference_index", r.toNat)]
  | methodType d => describeFields label [("descriptor_index", d.toNat)]
  | dynamic b n | invokeDynamic b n =>
    describeFields label [("bootstrap_index", b.toNat), ("name_and_type_index", n.toNat)]

end Constant

end PrimaryDex
