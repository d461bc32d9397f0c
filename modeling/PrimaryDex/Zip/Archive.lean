import PrimaryDex.Zip.EndRecord
import PrimaryDex.Zip.Entry

namespace PrimaryDex.Zip

/-!
# Archives

* `Archive.ofBytes` — reads the directory of an archive;
* `Archive.find?` — the entry of a name, of several the last one;
* `Archive.fileNames` — the names of the files. An unmarked encryption forbids to list any;
* `Archive.contents?` — what can be read from an entry.
-/

/-- An archive with its directory. -/
structure Archive where
  bytes : ByteArray
  entries : List Entry

namespace Archive

/-- Reads `n` entries behind those in `done`, the latest first. -/
def readEntries (shift : Nat) (done : List Entry) : Nat → HeaderReader (List Entry)
  | 0 => return done.reverse
  | n + 1 => do readEntries shift ((← Entry.read shift) :: done) n

/-- Reads the directory of an archive. -/
def ofBytes (bytes : ByteArray) : Except ArchiveError Archive := do
  let place ← findDirectory bytes
  let entries ← (readEntries place.shift [] place.entries).at bytes place.start bytes.size
  return ⟨bytes, entries⟩

/-- The last entry of a name. -/
def find? (a : Archive) (name : String) : Option Entry :=
  a.entries.reverse.find? (·.name = name)

/-- The name of an entry, if it is no folder and can be opened. -/
def fileName? (a : Archive) (e : Entry) : Except ArchiveError (Option String) :=
  match e.dataStart a.bytes with
  | .ok _ => .ok (if e.isFolder then none else some e.name)
  | .error .unmarkedEncryption => .error .unmarkedEncryption
  | .error _ => .ok none

/-- The names of the entries that are no folders and can be opened, in order. -/
def fileNames (a : Archive) : Except ArchiveError (List String) :=
  a.entries.filterMapM a.fileName?

/-- The content of an entry, if it can be opened and read. -/
def contents? (a : Archive) (e : Entry) : Option ByteArray :=
  match e.dataStart a.bytes with
  | .ok start => (e.readAt a.bytes start).toOption
  | .error _ => none

end Archive

end PrimaryDex.Zip
