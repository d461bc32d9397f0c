import PrimaryDex.Text.Utf8
import PrimaryDex.Zip.CodePage437
import PrimaryDex.Zip.Crc32
import PrimaryDex.Zip.Header
import PrimaryDex.Zip.Inflate

namespace PrimaryDex.Zip

/-!
# Entries of an archive

* `Entry.read` — an entry as the directory describes it;
* `Entry.dataStart` — opens an entry: where its data is, unless something forbids to read it;
* `Entry.readAt` — the content of an entry.
-/

/-- How the data of an entry is compressed. -/
inductive Method where
  | stored
  | deflated
  /-- Encrypted data, whose method stands in an extra field. -/
  | encrypted
  | other (code : Nat)
  deriving DecidableEq

/-- The method with a given code. -/
def Method.ofCode : Nat → Method
  | 0 => .stored
  | 8 => .deflated
  | 99 => .encrypted
  | code => .other code

/-- An entry as the directory describes it. -/
structure Entry where
  name : String
  isEncrypted : Bool
  method : Method
  checksum : UInt32
  expandedSize : Nat
  compressedSize : Nat
  /-- Where the header in front of the data stands. -/
  position : Nat
  /-- Whether an extra field tells how the entry is encrypted. -/
  hasEncryptionField : Bool

/-- Why an open entry can not be read to its end. -/
inductive ReadError where
  | checksum
  | inflate (cause : InflateError)
  deriving DecidableEq

/-- The wording of a cause. -/
def ReadError.message : ReadError → String
  | checksum => "Invalid checksum"
  | inflate .corrupt => "corrupt deflate stream"
  | inflate .incomplete => "incomplete deflate stream"

namespace Entry

/-- Whether the entry is a folder, which its name tells. -/
def isFolder (e : Entry) : Bool :=
  match e.name.toList.getLast? with
  | some c => c == '/' || c == '\\'
  | none => false

/-! ### Extra fields -/

/-- What stands in a size or offset whose value is in an extra field. -/
def elsewhere : Nat := 0xffffffff

/-- Reads the value of a field that is in an extra field, and how many bytes it takes. -/
def readLarge (value : Nat) : HeaderReader (Nat × Nat) := do
  if value = elsewhere then return (← .number 8, 8) else return (value, 0)

/-- Reads the extra field with the large sizes and offset, and how much of it is used. -/
def readLargeField (e : Entry) : HeaderReader (Entry × Nat) := do
  let (expandedSize, n) ← readLarge e.expandedSize
  let (compressedSize, m) ← readLarge e.compressedSize
  let (position, k) ← readLarge e.position
  return ({ e with expandedSize, compressedSize, position }, n + m + k)

/-- Reads the extra field that tells how an entry is encrypted. -/
def readEncryptionField (e : Entry) (length : Nat) : HeaderReader Entry := do
  if length ≠ 7 then throw .encryptionFieldLength
  let version ← .number 2
  let vendor ← .number 2
  let strength ← .number 1
  let method ← .number 2
  if vendor ≠ 0x4541 then throw .encryptionVendor
  if version ≠ 1 ∧ version ≠ 2 then throw .encryptionVersion
  if strength = 0 ∨ 3 < strength then throw .encryptionStrength
  return { e with method := .ofCode method, hasEncryptionField := true }

/-- Reads one extra field. The encryption field does not count what it used, so that as much again is
    skipped. -/
def readField (e : Entry) : HeaderReader Entry := do
  let kind ← .number 2
  let length ← .number 2
  match kind with
  | 0x0001 =>
    let (e, used) ← readLargeField e
    HeaderReader.skip (length - used)
    return e
  | 0x9901 =>
    let e ← readEncryptionField e length
    HeaderReader.skip length
    return e
  | _ =>
    HeaderReader.skip length
    return e

/-- Reads up to `count` extra fields. One that is cut off ends them. -/
def readFields (e : Entry) (count : Nat) (bytes : List UInt8) : Except ArchiveError Entry :=
  match count with
  | 0 => .ok e
  | count + 1 =>
    if bytes.isEmpty then .ok e
    else match (readField e).run bytes with
      | .ok (e, rest) => readFields e count rest
      | .error .truncated => .ok e
      | .error cause => .error cause

/-! ### The directory -/

/-- What stands in front of an entry of the directory. -/
def directorySignature : Nat := 0x02014b50

/-- What stands in front of an entry's data. -/
def signature : Nat := 0x04034b50

/-- The text of a name, which is UTF-8 or in code page 437. -/
def decodeName (isUtf8 : Bool) (bytes : List UInt8) : String :=
  String.ofList (if isUtf8 then Text.Utf8.decodeLossy bytes else CodePage437.decode bytes)

/-- Reads one entry of the directory. All places are `shift` behind their offsets. -/
def read (shift : Nat) : HeaderReader Entry := do
  if (← .number 4) ≠ directorySignature then throw .badDirectoryHeader
  let _versions ← HeaderReader.number 4
  let flags ← .number 2
  let method ← .number 2
  let _modified ← HeaderReader.number 4
  let checksum ← .number 4
  let compressedSize ← .number 4
  let expandedSize ← .number 4
  let nameLength ← .number 2
  let extraLength ← .number 2
  let commentLength ← .number 2
  let _diskAndAttributes ← HeaderReader.number 8
  let position ← .number 4
  let name ← HeaderReader.take nameLength
  let extra ← HeaderReader.take extraLength
  let _comment ← HeaderReader.take commentLength
  let plain : Entry := {
    name := decodeName (flags.testBit 11) name
    isEncrypted := flags.testBit 0
    method := .ofCode method
    checksum := UInt32.ofNat checksum
    expandedSize, compressedSize, position
    hasEncryptionField := false }
  -- Every field takes at least one byte.
  let e ← plain.readFields extra.length extra
  if e.method = .encrypted ∧ !e.hasEncryptionField then throw .encryptionFieldMissing
  if maxOffset < e.position + shift then throw .offsetTooLarge
  return { e with position := e.position + shift }

/-! ### Data -/

/-- Where the data of an entry starts, if the entry can be opened. The header in front of the data
    counts only for its length. -/
def dataStart (e : Entry) (bytes : ByteArray) : Except ArchiveError Nat := do
  if e.isEncrypted then throw .passwordRequired
  let header : HeaderReader Nat := do
    if (← .number 4) ≠ signature then throw .badEntryHeader
    HeaderReader.skip 22
    let nameLength ← .number 2
    let extraLength ← .number 2
    return 30 + nameLength + extraLength
  let length ← header.at bytes e.position 30
  match e.method with
  | .encrypted | .other _ => throw .unknownMethod
  | _ => if e.hasEncryptionField then throw .unmarkedEncryption
  return e.position + length

/-- Expands the data of an entry by its method. -/
def expand (e : Entry) (data : List UInt8) : Except ReadError ByteArray :=
  match e.method with
  | .deflated =>
    match inflate data with
    | .ok content => .ok content
    | .error cause => .error (.inflate cause)
  | _ => .ok ⟨data.toArray⟩

/-- What reading the data from `start` on to its end gives. Only the content is checked, not its
    size. -/
def readAt (e : Entry) (bytes : ByteArray) (start : Nat) : Except ReadError ByteArray := do
  let content ← e.expand (window bytes start e.compressedSize)
  if crc32 content = e.checksum then return content else throw .checksum

end Entry

end PrimaryDex.Zip
