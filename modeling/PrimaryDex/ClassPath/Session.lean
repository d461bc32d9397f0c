import PrimaryDex.ClassPath.Basic

namespace PrimaryDex.ClassPath

/-!
# Class paths in use

All look-ups on a class path read into one buffer, which is cleared before each read.

* `Session` — a class path with the buffer that its look-ups share;
* `LookUp` — a look-up as it happens. Of a stream that fails, some first part is left in the buffer;
* `Session.load` — looks up a class, and `Session.after` is the session after some look-ups;
* `answerAfter` — what a look-up gives behind some others.
-/

/-- A class path with the buffer that its look-ups share. -/
structure Session where
  path : ClassPath
  buffer : ByteArray

/-- A look-up of a class as it happens. -/
structure LookUp where
  /-- The file tree as it is then. -/
  files : FileSystem
  name : ClassName
  /-- What comes to the buffer of a stream that fails. -/
  leftover : ByteArray

/-- Reads a stream to its end, behind what the buffer holds. -/
def readToEnd (leftover buffer : ByteArray) :
    Container.Stream → ByteArray × Except StreamError Unit
  | .ok content => (buffer ++ content, .ok ())
  | .error cause => (buffer ++ leftover, .error cause)

/-- Loads a class from the first of some containers that has its file, by way of a buffer. -/
def loadInto (l : LookUp) (buffer : ByteArray) :
    List Container → ByteArray × Except Fault ClassFile
  | [] => (buffer, .error (.classNotFound l.name))
  | c :: cs =>
    match c.open l.files l.name.path with
    | .error (.entryNotFound _ _) => loadInto l buffer cs
    | .error fault => (buffer, .error fault)
    | .ok stream =>
      let cleared := ByteArray.empty
      match readToEnd l.leftover cleared stream with
      | (filled, .error cause) => (filled, .error (.unreadable l.name c.location cause))
      | (filled, .ok ()) => (filled, decodeFile l.name filled)

namespace Session

/-- The session before any look-up. -/
def start (cp : ClassPath) : Session := ⟨cp, .empty⟩

/-- Looks up a class. -/
def load (s : Session) (l : LookUp) : Session × Except Fault ClassFile :=
  let (buffer, answer) := loadInto l s.buffer s.path.containers
  ({ s with buffer }, answer)

/-- The session after some look-ups, whatever they gave. -/
def after (s : Session) (history : List LookUp) : Session :=
  history.foldl (fun s l => (s.load l).1) s

end Session

/-- What a look-up gives behind some others. -/
def answerAfter (cp : ClassPath) (history : List LookUp) (l : LookUp) : Except Fault ClassFile :=
  (((Session.start cp).after history).load l).2

end PrimaryDex.ClassPath
