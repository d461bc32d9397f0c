import PrimaryDex.Zip.ArchiveError

namespace PrimaryDex.Zip

/-!
# Reading headers

The headers of an archive are rows of little-endian numbers. A `HeaderReader` consumes them from the
front of a list of bytes.
-/

/-- A reader of the bytes from some place of an archive on. -/
abbrev HeaderReader := StateT (List UInt8) (Except ArchiveError)

/-- The number that some bytes write, the least significant one first. -/
def littleEndian (bytes : List UInt8) : Nat :=
  bytes.foldr (fun b n => n * 256 + b.toNat) 0

/-- The greatest offset in an archive. -/
def maxOffset : Nat := 0xffffffffffffffff

namespace HeaderReader

/-- Consumes exactly `n` bytes. -/
def take (n : Nat) : HeaderReader (List UInt8) := fun bytes =>
  let front := bytes.take n
  if front.length = n then .ok (front, bytes.drop n) else .error .truncated

/-- Consumes the number that the next `n` bytes write. -/
def number (n : Nat) : HeaderReader Nat := littleEndian <$> take n

/-- Consumes up to `n` bytes. -/
def skip (n : Nat) : HeaderReader Unit := fun bytes => .ok ((), bytes.drop n)

end HeaderReader

/-- The bytes of an archive from `position` on, at most `length` of them. -/
def window (bytes : ByteArray) (position length : Nat) : List UInt8 :=
  if position < bytes.size then
    (bytes.extract position (min (position + length) bytes.size)).data.toList
  else []

/-- Reads at a place of an archive. -/
def HeaderReader.at {α : Type} (r : HeaderReader α) (bytes : ByteArray) (position length : Nat) :
    Except ArchiveError α :=
  (·.1) <$> r.run (window bytes position length)

end PrimaryDex.Zip
