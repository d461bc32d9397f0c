namespace PrimaryDex

/-!
# What can go wrong with a path

`FileError` lists the causes and `FileError.message` words them as the operating system does.
-/

/-- Why a path could not be used, or what it leads to could not be. -/
inductive FileError where
  | notFound
  | alreadyExists
  | notFolder
  | isFolder
  | nameTooLong
  | tooManyLinks
  | nulInPath
  /-- The file is there but holds no UTF-8. -/
  | notUtf8
  /-- What is read has no end, or none that the memory reaches. -/
  | outOfMemory
  /-- Any other answer of the system, with its wording and the number that it has. -/
  | system (wording : String) (number : Nat)
  deriving DecidableEq, Inhabited

namespace FileError

/-- The answer to who lacks the right to do something. -/
def noPermission : FileError := system "Permission denied" 13

/-- The answer of a disk, or of a device, that takes nothing more. -/
def noSpace : FileError := system "No space left on device" 28

/-- The wording of a cause, with the number that the system has for it. -/
def message : FileError → String
  | notFound => "No such file or directory (os error 2)"
  | alreadyExists => "File exists (os error 17)"
  | notFolder => "Not a directory (os error 20)"
  | isFolder => "Is a directory (os error 21)"
  | nameTooLong => "File name too long (os error 36)"
  | tooManyLinks => "Too many levels of symbolic links (os error 40)"
  | nulInPath => "file name contained an unexpected NUL byte"
  | notUtf8 => "stream did not contain valid UTF-8"
  | outOfMemory => "out of memory"
  | system wording number => s!"{wording} (os error {number})"

end FileError

end PrimaryDex
