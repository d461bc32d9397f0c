import PrimaryDex.Zip.Header

namespace PrimaryDex.Zip

/-!
# Finding the directory of an archive

The directory is found from the end of the archive. An end record stands in the last bytes; a large
one with wider fields may stand before it, and then a locator between the two points at it. Bytes in
front of the archive shift all offsets in it.

* `EndRecord.find` — the last end record;
* `findDirectory` — where the directory starts, how many entries it has and by how much offsets are
  shifted.
-/

/-- The end record of an archive. -/
structure EndRecord where
  /-- Where the record stands. -/
  position : Nat
  disk : Nat
  directoryDisk : Nat
  entriesOnDisk : Nat
  entries : Nat
  directorySize : Nat
  directoryOffset : Nat
  commentLength : Nat

namespace EndRecord

def signature : Nat := 0x06054b50

/-- The length of a record without its comment. -/
def length : Nat := 22

/-- The greatest length of a comment. -/
def maxComment : Nat := 0xffff

/-- Whether the four bytes at a place write `n`. -/
def isSignature (n : Nat) (bytes : ByteArray) (position : Nat) : Bool :=
  littleEndian (window bytes position 4) == n

/-- Reads the record at a place. -/
def read (position : Nat) : HeaderReader EndRecord := do
  HeaderReader.skip 4
  let disk ← .number 2
  let directoryDisk ← .number 2
  let entriesOnDisk ← .number 2
  let entries ← .number 2
  let directorySize ← .number 4
  let directoryOffset ← .number 4
  let commentLength ← .number 2
  let _comment ← HeaderReader.take commentLength
  return { position, disk, directoryDisk, entriesOnDisk, entries, directorySize, directoryOffset,
           commentLength }

/-- The last place among the last `n + 1` up to `position` that holds the record's signature. -/
def lastSignature? (bytes : ByteArray) (position : Nat) : Nat → Option Nat
  | 0 => if isSignature signature bytes position then some position else none
  | n + 1 =>
    if isSignature signature bytes position then some position
    else if position = 0 then none
    else lastSignature? bytes (position - 1) n

/-- The last end record of an archive. -/
def find (bytes : ByteArray) : Except ArchiveError EndRecord :=
  if bytes.size < length then .error .tooShort
  else match lastSignature? bytes (bytes.size - length) maxComment with
    | none => .error .noEndRecord
    | some position => (read position).at bytes position (length + maxComment)

/-- Whether a field is too narrow for its value, so that only a large record holds it. -/
def isTooSmall (r : EndRecord) : Bool :=
  r.disk == 0xffff || r.directoryDisk == 0xffff || r.entriesOnDisk == 0xffff
    || r.entries == 0xffff || r.directorySize == 0xffffffff || r.directoryOffset == 0xffffffff

end EndRecord

/-- The fields of a large end record that matter. -/
structure LargeEndRecord where
  disk : Nat
  directoryDisk : Nat
  entries : Nat
  directoryOffset : Nat

namespace LargeEndRecord

def signature : Nat := 0x06064b50

/-- Reads the record at the front. -/
def read : HeaderReader LargeEndRecord := do
  let _signature ← HeaderReader.number 4
  let _recordSize ← HeaderReader.number 8
  let _versions ← HeaderReader.number 4
  let disk ← .number 4
  let directoryDisk ← .number 4
  let _entriesOnDisk ← HeaderReader.number 8
  let entries ← .number 8
  let _directorySize ← HeaderReader.number 8
  let directoryOffset ← .number 8
  return { disk, directoryDisk, entries, directoryOffset }

/-- The length of a record. -/
def length : Nat := 56

/-- The length of a record and of the locator behind it. -/
def lengthWithLocator : Nat := 60

/-- The first place among `n` from `position` on that holds the record's signature. -/
def firstSignature? (bytes : ByteArray) (position : Nat) : Nat → Option Nat
  | 0 => none
  | n + 1 =>
    if EndRecord.isSignature signature bytes position then some position
    else firstSignature? bytes (position + 1) n

end LargeEndRecord

/-- What the locator of a large end record says. -/
structure Locator where
  directoryDisk : Nat
  recordOffset : Nat

namespace Locator

def signature : Nat := 0x07064b50

/-- Reads the locator at the front, if there is one. -/
def read : HeaderReader (Option Locator) := do
  let found ← .number 4
  if found ≠ signature then return none
  let directoryDisk ← .number 4
  let recordOffset ← .number 8
  let _disks ← HeaderReader.number 4
  return some { directoryDisk, recordOffset }

/-- The length of a locator. -/
def length : Nat := 20

/-- The locator in front of an end record whose comment ends the archive. -/
def find (bytes : ByteArray) (r : EndRecord) : Except ArchiveError (Option Locator) :=
  let back := length + EndRecord.length + r.commentLength
  if bytes.size < back then .ok none else read.at bytes (bytes.size - back) length

end Locator

/-- Where the directory is. -/
structure DirectoryPlace where
  start : Nat
  entries : Nat
  /-- How far everything is from where its offset says. -/
  shift : Nat

/-- The directory that an end record describes. -/
def EndRecord.place (r : EndRecord) : Except ArchiveError DirectoryPlace :=
  if r.position < r.directorySize + r.directoryOffset then .error .misplacedDirectory
  else
    let shift := r.position - r.directorySize - r.directoryOffset
    .ok ⟨r.directoryOffset + shift, r.entriesOnDisk, shift⟩

/-- The directory that the large end record describes to which a locator points. The record stands
    where the locator says or, in a shifted archive, behind that place. -/
def Locator.place (l : Locator) (bytes : ByteArray) (r : EndRecord) :
    Except ArchiveError DirectoryPlace := do
  if !r.isTooSmall && r.disk ≠ l.directoryDisk then throw .severalDisks
  if r.position < LargeEndRecord.lengthWithLocator then throw .noRoomForLargeEnd
  let last := r.position - LargeEndRecord.lengthWithLocator
  match LargeEndRecord.firstSignature? bytes l.recordOffset (last + 1 - l.recordOffset) with
  | none => throw .noLargeEndRecord
  | some position =>
    let large ← LargeEndRecord.read.at bytes position LargeEndRecord.length
    if large.disk ≠ large.directoryDisk then throw .severalDisks
    let shift := position - l.recordOffset
    if maxOffset < large.directoryOffset + shift then throw .misplacedDirectory
    return ⟨large.directoryOffset + shift, large.entries, shift⟩

/-- Finds the directory of an archive. -/
def findDirectory (bytes : ByteArray) : Except ArchiveError DirectoryPlace := do
  let r ← EndRecord.find bytes
  if !r.isTooSmall && r.disk ≠ r.directoryDisk then throw .severalDisks
  match ← Locator.find bytes r with
  | none => r.place
  | some l => l.place bytes r

end PrimaryDex.Zip
