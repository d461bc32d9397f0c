import PrimaryDex.ClassPath.Session
import PrimaryDex.Proofs.Closure.Lineage
import PrimaryDex.Proofs.FileTree.Following

namespace PrimaryDex

/-!
# The first container that has an entry

A look-up passes over the containers that lack an entry of the name, and the next one decides it, be
it by a class, by a damaged file or by not giving the entry out.

* `Container.LacksEntry` — a container is passed over; `lacksEntry_folder_iff` and
  `lacksEntry_archive_iff` say when an open one is;
* `Container.open_folder_of_at?`, `lacksEntry_folder_of_at?` — what an open folder gives out can be read
  off its tree, unless a path comes to a link;
* `Container.answer` — what a container answers that is not passed over;
* `ClassPath.loadFrom_eq` — a search through some containers is the answer of the first of them that
  is not passed over;
* `ClassPath.loadInto_eq` — what a search finds in its buffer makes no difference;
* `ClassPath.answerAfter_of_first` — so neither do earlier look-ups, whatever they were.
-/

namespace Container

variable {fs : FileSystem} {c : Container} {path : String}

/-- There is no entry at the path, so that a search goes on behind the container. -/
def LacksEntry (fs : FileSystem) (c : Container) (path : String) : Prop :=
  ∃ entry location, c.open fs path = .error (.entryNotFound entry location)

/-- What looking up a class comes to in the container that decides it. -/
def answer (fs : FileSystem) (c : Container) (name : ClassName) : Except Fault ClassFile :=
  match c.open fs name.path with
  | .error fault => .error fault
  | .ok (.error cause) => .error (.unreadable name c.location cause)
  | .ok (.ok content) => ClassPath.decodeFile name content

/-- A file that is there is refused for one reason only. -/
theorem fault_of_openFile {access : FileAccess} {content : ByteArray} {fault : Fault}
    (h : openFile access content = .error fault) : ∃ cause, fault = .io cause := by
  unfold openFile at h
  split at h
  · rename_i cause _
    exact ⟨cause, (Except.error.inj h).symm⟩
  · split at h <;> simp at h

/-- Opening an entry fails for four reasons. All name the container, but for what the system refuses. -/
theorem fault_of_open {fault : Fault} (h : c.open fs path = .error fault) :
    fault = .closed c.location ∨ fault = .entryNotFound path c.location
      ∨ (∃ cause, fault = .ofArchive c.location cause) ∨ ∃ cause, fault = .io cause := by
  unfold «open» at h
  split at h
  · exact .inl (Except.error.inj h).symm
  · split at h
    · exact .inr (.inr (.inr (fault_of_openFile h)))
    · exact .inr (.inl (Except.error.inj h).symm)
  · exact .inl (Except.error.inj h).symm
  · unfold openEntry at h
    split at h
    · exact .inr (.inl (Except.error.inj h).symm)
    · split at h
      · rename_i cause _
        exact .inr (.inr (.inl ⟨cause, (Except.error.inj h).symm⟩))
      · split at h
        · exact .inr (.inl (Except.error.inj h).symm)
        · simp at h

/-- A fault of opening is not that a class path lacks something. -/
theorem open_ne_absence (fs : FileSystem) (c : Container) (path : String) (n : ClassName) :
    c.open fs path ≠ .error (.classNotFound n) ∧ c.open fs path ≠ .error (.missingRoot n) := by
  constructor <;>
  · intro h
    rcases fault_of_open h with h | h | ⟨cause, h⟩ | ⟨cause, h⟩
    · simp at h
    · simp at h
    · cases cause <;> simp [Fault.ofArchive] at h
    · simp at h

/-- A closed container gives nothing out. -/
theorem open_of_isClosed (h : c.isClosed = true) (fs : FileSystem) (path : String) :
    c.open fs path = .error (.closed c.location) := by
  cases c with
  | folder location closed =>
    rw [show closed = true from h]
    rfl
  | archive location opened =>
    rw [show opened = none from Option.isNone_iff_eq_none.1 h]
    rfl

/-- A closed container is not passed over. -/
theorem not_lacksEntry_of_isClosed (h : c.isClosed = true) : ¬ c.LacksEntry fs path := by
  rintro ⟨entry, location, he⟩
  -- Its answer is another fault than that of a missing entry.
  rw [open_of_isClosed h] at he
  simp at he

/-- An open folder is passed over if no file is where the entry would be. -/
theorem lacksEntry_folder_iff {location : String} : (folder location false).LacksEntry fs path
    ↔ fs.fileAt? (entryPath location path) = none := by
  unfold LacksEntry «open»
  cases hf : fs.fileAt? (entryPath location path) with
  | none => simp [hf]
  | some found =>
    simp only [hf, reduceCtorEq, iff_false, not_exists]
    intro entry location' h
    obtain ⟨cause, hcause⟩ := fault_of_openFile h
    simp at hcause

/-- Without empty names, the path of an entry is that of the container with all names behind it. -/
theorem entryPath_eq {location : String} (h : ∀ name ∈ pathNames path, name ≠ "") :
    entryPath location path = (pathNames path).foldl joinPath location := by
  rw [entryPath, List.filter_eq_self.2 (by simpa using h)]

section

variable {location : String} {n : Node} {access : FileAccess} {content : ByteArray}

/-- A file that is found at the path of an entry stands in the folder, below folders that can be searched,
    if the names of the path come to no link. -/
theorem at?_of_fileAt?_entryPath (hs : fs.stat location = .ok n)
    (hdown : ∀ name ∈ pathNames path, goesDown (.ofText name) = true)
    (hlink : n.meetsLink (pathSteps path) = false)
    (hf : fs.fileAt? (entryPath location path) = some (access, content)) :
    n.at? (pathSteps path) = some (.file access content)
      ∧ n.passes (·.toSearch) (pathSteps path) = false := by
  rw [entryPath_eq fun name hname => (goesDown_ofText_iff.1 (hdown name hname)).1] at hf
  refine FileSystem.at?_of_fileAt? hs (pathNames_ne_nil path) (fun name hname => ?_) hlink hf
  exact ⟨hdown name hname, not_mem_of_mem_pathNames hname⟩

/-- A file of a folder is found at the path of its entry, if this is not too long and the folders on the
    way can be searched. -/
theorem fileAt?_entryPath_of_at? (hs : fs.stat location = .ok n)
    (hm : n.at? (pathSteps path) = some (.file access content))
    (hentry : ∀ name ∈ pathNames path, isEntryName (.ofText name) = true)
    (hopen : n.passes (·.toSearch) (pathSteps path) = false)
    (hsize : (entryPath location path).utf8ByteSize ≤ FileSystem.maxPath) :
    fs.fileAt? (entryPath location path) = some (access, content) := by
  have heq : entryPath location path = (pathNames path).foldl joinPath location :=
    entryPath_eq fun name hname =>
      (goesDown_ofText_iff.1 (isEntryName_iff.1 (hentry name hname)).1).1
  rw [heq] at hsize ⊢
  exact FileSystem.fileAt?_of_at? hs hm (pathNames_ne_nil path) hentry hopen hsize

/-- The folder gives such a file out, or refuses it as the system does. -/
theorem open_folder_of_at? (path : String) (hs : fs.stat location = .ok n)
    (hm : n.at? (pathSteps path) = some (.file access content))
    (hentry : ∀ name ∈ pathNames path, isEntryName (.ofText name) = true)
    (hopen : n.passes (·.toSearch) (pathSteps path) = false)
    (hsize : (entryPath location path).utf8ByteSize ≤ FileSystem.maxPath) :
    (folder location false).open fs path = openFile access content := by
  simp only [«open», fileAt?_entryPath_of_at? hs hm hentry hopen hsize]

/-- A folder is passed over for a path at which it has nothing. -/
theorem lacksEntry_folder_of_at? (hs : fs.stat location = .ok n)
    (hdown : ∀ name ∈ pathNames path, goesDown (.ofText name) = true)
    (hlink : n.meetsLink (pathSteps path) = false) (hm : n.at? (pathSteps path) = none) :
    (folder location false).LacksEntry fs path := by
  rw [lacksEntry_folder_iff, Option.eq_none_iff_forall_ne_some]
  rintro ⟨access, content⟩ hfile
  have hat := (at?_of_fileAt?_entryPath hs hdown hlink hfile).1
  simp [hm] at hat

end

/-- An open archive is passed over if it has no entry of the name, or a folder's, which could be
    opened. -/
theorem lacksEntry_archive_iff {location : String} {a : Zip.Archive} :
    (archive location (some a)).LacksEntry fs path
      ↔ ∀ e, a.find? path = some e →
        e.isFolder = true ∧ ∃ start, e.dataStart a.bytes = .ok start := by
  unfold LacksEntry «open» openEntry
  cases he : a.find? path with
  | none => simp [he]
  | some e =>
    cases hs : e.dataStart a.bytes with
    | error cause => cases cause <;> simp [he, hs, Fault.ofArchive]
    | ok start => cases hf : e.isFolder <;> simp [he, hs, hf]

/-- An archive without an entry of the name is passed over. -/
theorem lacksEntry_of_find?_eq_none {location : String} {a : Zip.Archive}
    (h : a.find? path = none) : (archive location (some a)).LacksEntry fs path :=
  lacksEntry_archive_iff.2 (by simp [h])

/-- The answer of a container is not that the whole class path lacks the class. -/
theorem answer_ne_classNotFound (fs : FileSystem) (c : Container) (name m : ClassName) :
    c.answer fs name ≠ .error (.classNotFound m) := by
  unfold answer
  split
  · rename_i fault ho
    rintro ⟨⟩
    exact (open_ne_absence fs c name.path m).1 ho
  · simp
  · unfold ClassPath.decodeFile
    split <;> simp

end Container

namespace ClassPath

variable {fs : FileSystem} {name : ClassName} {c : Container} {before after cs : List Container}

/-! ### The search -/

/-- A search goes on behind a container that is passed over. -/
theorem loadFrom_cons_of_lacksEntry (h : c.LacksEntry fs name.path) :
    loadFrom fs name (c :: cs) = loadFrom fs name cs := by
  obtain ⟨entry, location, he⟩ := h
  rw [loadFrom, he]

/-- A container that gives an entry out decides by what its bytes decode to. -/
theorem loadFrom_cons_of_open {content : ByteArray} (h : c.open fs name.path = .ok (.ok content)) :
    loadFrom fs name (c :: cs) = decodeFile name content := by
  rw [loadFrom, h]

theorem loadFrom_cons_of_not_lacksEntry (h : ¬ c.LacksEntry fs name.path) :
    loadFrom fs name (c :: cs) = c.answer fs name := by
  rw [loadFrom, Container.answer]
  split
  · rename_i entry location he
    exact absurd ⟨entry, location, he⟩ h
  all_goals rename_i ho; rw [ho]

/-- Containers in front that are all passed over might as well be missing. -/
theorem loadFrom_append_of_lacksEntry (h : ∀ b ∈ before, b.LacksEntry fs name.path) :
    loadFrom fs name (before ++ cs) = loadFrom fs name cs := by
  induction before with
  | nil => rfl
  | cons b before ih =>
    rw [List.cons_append, loadFrom_cons_of_lacksEntry (h b (List.mem_cons_self ..)),
      ih fun a ha => h a (List.mem_cons_of_mem _ ha)]

/-- **The first match decides.** What stands behind the first container that is not passed over does
    not matter. -/
theorem loadFrom_eq (hb : ∀ b ∈ before, b.LacksEntry fs name.path)
    (hc : ¬ c.LacksEntry fs name.path) (after : List Container) :
    loadFrom fs name (before ++ c :: after) = c.answer fs name := by
  rw [loadFrom_append_of_lacksEntry hb, loadFrom_cons_of_not_lacksEntry hc]

/-- If all of them are passed over, the class is not found. -/
theorem loadFrom_of_forall_lacksEntry (h : ∀ c ∈ cs, c.LacksEntry fs name.path) :
    loadFrom fs name cs = .error (.classNotFound name) := by
  rw [← List.append_nil cs, loadFrom_append_of_lacksEntry h, loadFrom]

/-- Either all containers are passed over, or there is a first one that is not. -/
theorem forall_lacksEntry_or_exists_first (fs : FileSystem) (path : String) (cs : List Container) :
    (∀ c ∈ cs, c.LacksEntry fs path)
      ∨ ∃ before c after, cs = before ++ c :: after ∧ (∀ b ∈ before, b.LacksEntry fs path)
        ∧ ¬ c.LacksEntry fs path := by
  induction cs with
  | nil => exact .inl (by simp)
  | cons k ks ih =>
    by_cases hk : k.LacksEntry fs path
    · rcases ih with h | ⟨before, c, after, rfl, hb, hc⟩
      · exact .inl (by simpa [hk] using h)
      · exact .inr ⟨k :: before, c, after, rfl, by simpa [hk] using hb, hc⟩
    · exact .inr ⟨[], k, ks, rfl, by simp, hk⟩

/-- A class is not on a class path exactly if every container is passed over. -/
theorem loadFrom_eq_classNotFound_iff {m : ClassName} :
    loadFrom fs name cs = .error (.classNotFound m)
      ↔ m = name ∧ ∀ c ∈ cs, c.LacksEntry fs name.path := by
  constructor
  · intro h
    -- A container that is not passed over would have answered otherwise.
    rcases forall_lacksEntry_or_exists_first fs name.path cs with hcs | ⟨_, c, _, rfl, hb, hc⟩
    · rw [loadFrom_of_forall_lacksEntry hcs] at h
      simp only [Except.error.injEq, Fault.classNotFound.injEq] at h
      exact ⟨h.symm, hcs⟩
    · rw [loadFrom_eq hb hc] at h
      exact absurd h (c.answer_ne_classNotFound fs name m)
  · rintro ⟨rfl, h⟩
    exact loadFrom_of_forall_lacksEntry h

/-- A class path lacks a class if all its containers are passed over. -/
theorem lacks_source_iff {cp : ClassPath} :
    (cp.source fs).Lacks name ↔ ∀ c ∈ cp.containers, c.LacksEntry fs name.path := by
  constructor
  · rintro ⟨m, hm⟩
    exact (loadFrom_eq_classNotFound_iff.1 hm).2
  · exact fun h => ⟨name, loadFrom_eq_classNotFound_iff.2 ⟨rfl, h⟩⟩

/-! ### The buffer -/

/-- What a search finds in its buffer makes no difference, since only a cleared one is read into. -/
theorem loadInto_eq (l : LookUp) (buffer : ByteArray) (cs : List Container) :
    (loadInto l buffer cs).2 = loadFrom l.files l.name cs := by
  induction cs with
  | nil => rfl
  | cons c cs ih =>
    unfold loadInto loadFrom
    -- Both searches branch on the same answer, and only the last branch looks at the buffer.
    cases c.open l.files l.name.path with
    | error fault =>
      cases fault with
      | entryNotFound => exact ih
      | _ => rfl
    | ok stream =>
      cases stream with
      | error cause => rfl
      | ok content =>
        show decodeFile l.name (.empty ++ content) = decodeFile l.name content
        rw [ByteArray.empty_append]

namespace Session

/-- A look-up leaves the containers as they are. -/
@[simp] theorem path_load (s : Session) (l : LookUp) : (s.load l).1.path = s.path := rfl

@[simp] theorem path_after (s : Session) (history : List LookUp) :
    (s.after history).path = s.path := by
  induction history generalizing s with
  | nil => rfl
  | cons l history ih =>
    show ((s.load l).1.after history).path = s.path
    rw [ih, path_load]

end Session

/-- A look-up on a class path in use gives what one on a fresh class path gives. -/
theorem answerAfter_eq (cp : ClassPath) (history : List LookUp) (l : LookUp) :
    cp.answerAfter history l = cp.load l.files l.name := by
  show (loadInto l _ ((Session.start cp).after history).path.containers).2 = _
  rw [loadInto_eq, Session.path_after]
  rfl

end ClassPath

/-! ### A class path that fails in every way -/

namespace Sample

/-- A class whose compressed data breaks the format. -/
def spoiltEntry : Zip.Entry := ⟨"Spoilt.class", false, .deflated, 0, 1, 1, 0, false⟩

/-- An archive that holds it behind a header without names. -/
def spoiltArchive : Zip.Archive where
  bytes := ⟨#[0x50, 0x4b, 0x03, 0x04] ++ Array.replicate 26 0 ++ #[0xff]⟩
  entries := [spoiltEntry]

def spoilt : ClassName := ⟨"Spoilt"⟩
def denied : ClassName := ⟨"Denied"⟩
def torn : ClassName := ⟨"Torn"⟩
def sound : ClassName := ⟨"Sound"⟩
def absent : ClassName := ⟨"Absent"⟩

/-- A class file of a class that has no superclass. -/
def soundContent : ByteArray :=
  ⟨#[0xca, 0xfe, 0xba, 0xbe, 0, 0, 0, 52, 0, 3, 1, 0, 5, 0x53, 0x6f, 0x75, 0x6e, 0x64, 7, 0, 1, 0, 0,
    0, 2, 0, 0, 0, 0]⟩

/-- What is decoded from it. -/
def soundFile : ClassFile :=
  ⟨⟨"Sound", none, [], ⟨#[none, some (.utf8 "Sound"), some (.classRef 1)]⟩⟩, sound⟩

/-- What a disk answers that is damaged. -/
def diskFault : FileError := .system "Input/output error" 5

/-- A folder with a file that may not be opened, one that cannot be read to its end, and a sound one. -/
def shadowing : Node :=
  .ofEntries [("Denied.class", .file { toRead := some .noPermission } soundContent),
    ("Torn.class", .file { midway := some diskFault } soundContent),
    ("Sound.class", .ofContent soundContent)]

/-- That folder is `a`. All classes but `Absent` have a sound file in `b`. -/
def shadowedTree : FileSystem where
  root := .ofEntries [("a", shadowing),
    ("b", .ofEntries [
      ("Spoilt.class", .ofContent soundContent),
      ("Denied.class", .ofContent soundContent),
      ("Torn.class", .ofContent soundContent)])]
  working := []

/-- An archive stands in front of both folders, and between these a folder that was closed. -/
def mixedPath : ClassPath :=
  ⟨[.archive "spoilt.jar" (some spoiltArchive), .folder "a" false, .folder "a" true,
    .folder "b" false]⟩

/-- The data behind the header is no sound block. -/
theorem readAt_spoilt : spoiltEntry.readAt spoiltArchive.bytes 30 = .error (.inflate .corrupt) := by
  have h : spoiltEntry.expand (Zip.window spoiltArchive.bytes 30 1)
      = .error (.inflate .corrupt) := by
    decide +kernel
  show spoiltEntry.expand (Zip.window spoiltArchive.bytes 30 1) >>= _ = _
  rw [h]
  rfl

/-- The entry is there, at the start of the archive. -/
theorem find?_spoilt : spoiltArchive.find? spoilt.path = some spoiltEntry := rfl

theorem dataStart_spoilt : spoiltEntry.dataStart spoiltArchive.bytes = .ok 30 := by
  decide +kernel

theorem isFolder_spoilt : spoiltEntry.isFolder = false := by
  decide

/-- The archive gives out a stream that fails. -/
theorem open_spoilt : (Container.archive "spoilt.jar" (some spoiltArchive)).open shadowedTree
    spoilt.path = .ok (.error (.data (.inflate .corrupt))) := by
  simp [Container.open, Container.openEntry, find?_spoilt, dataStart_spoilt, isFolder_spoilt,
    readAt_spoilt, Except.mapError]

/-- The first folder is where its name leads. -/
theorem stat_shadowing : shadowedTree.stat "a" = .ok shadowing :=
  FileSystem.stat_of_at? (by decide) (by decide) rfl rfl nofun (by decide) (by decide)

/-- The system does not open the file. -/
theorem open_denied : (Container.folder "a" false).open shadowedTree denied.path
    = .error (.io .noPermission) :=
  Container.open_folder_of_at? denied.path stat_shadowing rfl (by decide) (by decide) (by decide)

/-- The file is opened and breaks off. -/
theorem open_torn : (Container.folder "a" false).open shadowedTree torn.path
    = .ok (.error (.file diskFault)) :=
  Container.open_folder_of_at? torn.path stat_shadowing rfl (by decide) (by decide) (by decide)

theorem open_sound :
    (Container.folder "a" false).open shadowedTree sound.path = .ok (.ok soundContent) :=
  Container.open_folder_of_at? sound.path stat_shadowing rfl (by decide) (by decide) (by decide)

theorem lacksEntry_absent :
    (Container.folder "a" false).LacksEntry shadowedTree absent.path :=
  Container.lacksEntry_folder_of_at? stat_shadowing (by decide) (by decide) rfl

theorem decodeFile_sound : ClassPath.decodeFile sound soundContent = .ok soundFile := by
  decide +kernel

/-- The archive has no class but one. -/
theorem lacksEntry_spoiltArchive {path : String} (h : path ≠ "Spoilt.class") :
    (Container.archive "spoilt.jar" (some spoiltArchive)).LacksEntry shadowedTree path := by
  refine Container.lacksEntry_of_find?_eq_none ?_
  simp [Zip.Archive.find?, spoiltArchive, spoiltEntry, h.symm]

end Sample

namespace ClassPath

open Sample (absent denied diskFault mixedPath shadowedTree sound soundFile spoilt torn)

/-- **The first match decides, whatever came before.** After any look-ups, a class is not found if
    every container is passed over. Otherwise the first one that is not gives the answer: it does not
    give the entry out, be it closed, damaged or refused by the system, or the entry cannot be read to its
    end, or the answer is what its bytes decode to. A closed container is never passed over. -/
theorem answerAfter_of_first (cp : ClassPath) (history : List LookUp) (l : LookUp) :
    ((∀ c ∈ cp.containers, c.LacksEntry l.files l.name.path) →
        cp.answerAfter history l = .error (.classNotFound l.name))
      ∧ (∀ before c after, cp.containers = before ++ c :: after →
        (∀ b ∈ before, b.LacksEntry l.files l.name.path) → ¬ c.LacksEntry l.files l.name.path →
          (∀ fault, c.open l.files l.name.path = .error fault →
              cp.answerAfter history l = .error fault)
            ∧ (∀ cause, c.open l.files l.name.path = .ok (.error cause) →
              cp.answerAfter history l = .error (.unreadable l.name c.location cause))
            ∧ ∀ content, c.open l.files l.name.path = .ok (.ok content) →
              cp.answerAfter history l = decodeFile l.name content)
      ∧ ∀ c : Container, c.isClosed = true →
        c.open l.files l.name.path = .error (.closed c.location)
          ∧ ¬ c.LacksEntry l.files l.name.path := by
  have heq : cp.answerAfter history l = loadFrom l.files l.name cp.containers :=
    answerAfter_eq cp history l
  rw [heq]
  refine ⟨loadFrom_of_forall_lacksEntry, fun before c after hcp hb hc => ?_, fun c hc => ?_⟩
  · rw [hcp, loadFrom_eq hb hc, Container.answer]
    refine ⟨fun fault ho => ?_, fun cause ho => ?_, fun content ho => ?_⟩ <;> rw [ho]
  · exact ⟨Container.open_of_isClosed hc _ _, Container.not_lacksEntry_of_isClosed hc⟩

/-- After a look-up that failed in the middle of a read, the next class is decoded from its own bytes
    alone. The classes that cannot be opened or read are not looked for in the folder behind, and one that
    nothing in front has comes to the closed container. -/
theorem answerAfter_of_first_mixedPath :
    mixedPath.answerAfter [⟨shadowedTree, torn, ⟨#[0xca, 0xfe]⟩⟩] ⟨shadowedTree, sound, .empty⟩
        = .ok soundFile
      ∧ mixedPath.answerAfter [⟨shadowedTree, sound, .empty⟩]
          ⟨shadowedTree, spoilt, ⟨#[0xca, 0xfe]⟩⟩
        = .error (.unreadable spoilt "spoilt.jar" (.data (.inflate .corrupt)))
      ∧ mixedPath.answerAfter [] ⟨shadowedTree, torn, ⟨#[0xca, 0xfe]⟩⟩
        = .error (.unreadable torn "a" (.file diskFault))
      ∧ mixedPath.answerAfter [] ⟨shadowedTree, denied, .empty⟩ = .error (.io .noPermission)
      ∧ mixedPath.answerAfter [] ⟨shadowedTree, absent, .empty⟩ = .error (.closed "a") := by
  -- What is not in the archive and is in the folder is decided there.
  have in_folder (l : LookUp) (hfiles : l.files = shadowedTree) (hname : l.name.path ≠ "Spoilt.class")
      (hlacks : ¬ (Container.folder "a" false).LacksEntry l.files l.name.path)
      (history : List LookUp) :=
    (answerAfter_of_first mixedPath history l).2.1 [.archive "spoilt.jar" _] (.folder "a" false) _ rfl
      (by simpa [hfiles] using Sample.lacksEntry_spoiltArchive hname) hlacks
  refine ⟨?_, ?_, ?_, ?_, ?_⟩
  · rw [← Sample.decodeFile_sound]
    refine (in_folder ⟨shadowedTree, sound, .empty⟩ rfl (by decide) ?_ _).2.2 _ Sample.open_sound
    rintro ⟨entry, location, h⟩
    simp [Sample.open_sound] at h
  · refine ((answerAfter_of_first mixedPath _ ⟨shadowedTree, spoilt, ⟨#[0xca, 0xfe]⟩⟩).2.1
      [] _ _ rfl (by simp) ?_).2.1 _ Sample.open_spoilt
    rintro ⟨entry, location, h⟩
    simp [Sample.open_spoilt] at h
  · refine (in_folder ⟨shadowedTree, torn, ⟨#[0xca, 0xfe]⟩⟩ rfl (by decide) ?_ _).2.1 _
      Sample.open_torn
    rintro ⟨entry, location, h⟩
    simp [Sample.open_torn] at h
  · refine (in_folder ⟨shadowedTree, denied, .empty⟩ rfl (by decide) ?_ _).1 _ Sample.open_denied
    rintro ⟨entry, location, h⟩
    simp [Sample.open_denied] at h
  · refine ((answerAfter_of_first mixedPath _ ⟨shadowedTree, absent, .empty⟩).2.1
      [.archive "spoilt.jar" _, .folder "a" false] (.folder "a" true) _ rfl ?_
      (Container.not_lacksEntry_of_isClosed rfl)).1 _ (Container.open_of_isClosed rfl _ _)
    simpa using ⟨Sample.lacksEntry_spoiltArchive (by decide), Sample.lacksEntry_absent⟩

end ClassPath

end PrimaryDex
