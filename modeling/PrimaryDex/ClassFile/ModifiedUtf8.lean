import PrimaryDex.ClassFile.FormatError
import PrimaryDex.Text.Utf16

namespace PrimaryDex.ModifiedUtf8

open Text

/-!
# Modified UTF-8

Class files write a text as UTF-16 code units, each in one to three bytes: one for U+0001 to U+007F,
two for U+0000 and U+0080 to U+07FF, three for all others.

* `units` — the code units of a list of bytes. A group of two or three bytes is taken by its form
  alone, whether or not fewer bytes would do;
* `decode` — the text;
* `encode` — the bytes of a text.
-/

/-- Whether a byte may follow the first byte of a group. -/
def isContinuation (b : UInt8) : Bool := b &&& 0xc0 == 0x80

/-- Whether a byte is a group of its own. -/
def isSingle (b : UInt8) : Bool := 0x01 ≤ b && b ≤ 0x7f

/-- The six bits that a byte adds to its group. -/
def low (b : UInt8) : UInt16 := (b &&& 0x3f).toUInt16

/-- The code unit of a group of two bytes. -/
def unit2 (a b : UInt8) : UInt16 := (a &&& 0x1f).toUInt16 <<< 6 ||| low b

/-- The code unit of a group of three bytes. -/
def unit3 (a b c : UInt8) : UInt16 := (a &&& 0x0f).toUInt16 <<< 12 ||| low b <<< 6 ||| low c

/-- The code units in `done`, the latest first, and then those of the bytes at `position`. -/
def unitsBehind (done : List UInt16) (position : Nat) :
    List UInt8 → Except FormatError (List UInt16)
  | [] => .ok done.reverse
  | a :: bytes =>
    if isSingle a then unitsBehind (a.toUInt16 :: done) (position + 1) bytes
    else if 0xc0 ≤ a && a ≤ 0xdf then
      match bytes with
      | b :: rest =>
        if isContinuation b then unitsBehind (unit2 a b :: done) (position + 2) rest
        else .error (.truncatedSequence position)
      | [] => .error (.truncatedSequence position)
    else if 0xe0 ≤ a && a ≤ 0xef then
      match bytes with
      | b :: c :: rest =>
        if isContinuation b && isContinuation c then
          unitsBehind (unit3 a b c :: done) (position + 3) rest
        else .error (.truncatedSequence position)
      | _ => .error (.truncatedSequence position)
    else .error (.invalidByte a position)

/-- The code units of some bytes. -/
def units (bytes : List UInt8) : Except FormatError (List UInt16) :=
  unitsBehind [] 0 bytes

/-- The text that the bytes write. Bytes that are all groups of their own are characters as they
    stand. -/
def decode (bytes : List UInt8) : Except FormatError String :=
  if bytes.all isSingle then .ok (String.ofList (bytes.map fun b => Char.ofNat b.toNat))
  else (fun us => String.ofList (Utf16.decode us)) <$> units bytes

/-- The group of a code unit. -/
def encodeUnit (u : UInt16) : List UInt8 :=
  let n := u.toNat
  if 0 < n ∧ n < 0x80 then [UInt8.ofNat n]
  else if n < 0x800 then [UInt8.ofNat (0xc0 + n / 0x40), UInt8.ofNat (0x80 + n % 0x40)]
  else [UInt8.ofNat (0xe0 + n / 0x1000), UInt8.ofNat (0x80 + n / 0x40 % 0x40),
    UInt8.ofNat (0x80 + n % 0x40)]

/-- The bytes of a text. -/
def encode (t : String) : List UInt8 :=
  (Utf16.encode t.toList).flatMap encodeUnit

end PrimaryDex.ModifiedUtf8
