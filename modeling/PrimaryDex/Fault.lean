import PrimaryDex.ClassFile.FormatError
import PrimaryDex.ClassName
import PrimaryDex.FileTree.FileError
import PrimaryDex.Zip.Entry

namespace PrimaryDex

/-!
# Faults of a search

`Fault` lists what can go wrong when containers are opened and classes are looked up.

* `StreamError` — why something that was opened cannot be read to its end;
* `Fault.message` — the wording of a fault;
* `Fault.account` — the wording with all that lies behind the fault;
* `Fault.breaksOff` — whether it is no fault that is answered, but the end of the run.
-/

/-- Why a location is no container. -/
inductive LocationCause where
  | file (cause : FileError)
  | archive (cause : Zip.ArchiveError)
  /-- Neither a folder nor a file. -/
  | notRegular
  deriving DecidableEq

/-- The wording of a cause. -/
def LocationCause.message : LocationCause → String
  | file cause => cause.message
  | archive cause => cause.message
  | notRegular => "not a regular file"

/-- Why something that was opened can not be read to its end. -/
inductive StreamError where
  /-- The data of an archive's entry is damaged. -/
  | data (cause : Zip.ReadError)
  /-- The system does not deliver all bytes of a file. -/
  | file (cause : FileError)
  deriving DecidableEq

/-- The wording of a cause. -/
def StreamError.message : StreamError → String
  | data cause => cause.message
  | file cause => cause.message

/-- What can go wrong with containers and classes. -/
inductive Fault where
  | invalidLocation (location : String) (cause : LocationCause)
  | locationNotFound (location : String)
  | entryNotFound (entry location : String)
  /-- The container at the location was closed before. -/
  | closed (location : String)
  | classNotFound (name : ClassName)
  | missingRoot (name : ClassName)
  | badFormat (name : ClassName) (cause : FormatError)
  | unreadable (name : ClassName) (location : String) (cause : StreamError)
  | archive (location : String) (cause : Zip.ArchiveError)
  /-- A file that is there cannot be opened. -/
  | io (cause : FileError)
  /-- An entry of the archive tells how it is encrypted, but not that it is. Nothing answers to that:
      the run stops where it is. -/
  | brokenOff (location : String)
  deriving DecidableEq

/-- What an archive's fault comes to. -/
def Fault.ofArchive (location : String) : Zip.ArchiveError → Fault
  | .unmarkedEncryption => brokenOff location
  | cause => archive location cause

/-- The wording of a fault. -/
def Fault.message : Fault → String
  | invalidLocation location cause =>
    s!"\"{location}\" is neither a directory nor a zip archive: {cause.message}"
  | locationNotFound location => s!"classpath location \"{location}\" not found"
  | entryNotFound entry location => s!"\"{entry}\" not found in {location}"
  | closed location => s!"classpath element {location} is closed"
  | classNotFound name => s!"class {name.path} not found on the classpath"
  | missingRoot name => s!"root class {name.path} is missing from the classpath"
  | badFormat name cause => s!"{name.path} is not a valid class file: {cause.message}"
  | unreadable name location cause => s!"failed to read {name.path} from {location}: {cause.message}"
  | archive location cause => s!"zip error in {location}: {cause.message}"
  | io cause => cause.message
  | brokenOff location => s!"an entry of {location} is encrypted without being marked"

/-- The wordings of what lies behind a fault, the nearest first. -/
def Fault.causes : Fault → List String
  | badFormat _ cause => [cause.message]
  | unreadable _ _ cause => [cause.message]
  | archive _ cause => cause.message :: cause.causes
  | _ => []

/-- Whether a run breaks off, with no account of why. -/
def Fault.breaksOff : Fault → Bool
  | brokenOff _ => true
  | _ => false

/-- The wording of a fault and of what lies behind it. -/
def Fault.account (f : Fault) : String := ": ".intercalate (f.message :: f.causes)

end PrimaryDex
