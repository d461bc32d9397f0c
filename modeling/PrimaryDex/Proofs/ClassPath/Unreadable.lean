import PrimaryDex.Proofs.ClassPath.RootContainer
import PrimaryDex.Proofs.FileTree.Unlocking

namespace PrimaryDex

/-!
# Entries that are there and cannot be read

A class file may be damaged before its first byte is read, or at any later one. What a look-up answers
depends on where.

* `Container.HasEntry` — a container has an entry, whether it can be read or not;
* `EntryFault`, `Container.Spoilt` — what can be wrong with an entry, read off the directory and the bytes
  of an archive or off the file and the way to it, and `Spoilt.open_eq`, what comes of opening it then;
* `Container.exists_open_or_spoilt` — an entry is read, or it is spoilt in one of these ways;
* `ClassPath.load_of_first_entry` — what a look-up comes to at the first entry of the name. A fault in
  reading it makes the class unreadable, and no other fault does.
-/

/-- What can be wrong with an entry that is there. -/
inductive EntryFault where
  /-- It cannot be opened: it is encrypted, its method is not known or its header is damaged. -/
  | opening (cause : Zip.ArchiveError)
  /-- The system does not open the file. -/
  | denied (cause : FileError)
  /-- It cannot be read to its end: its data is damaged, or the system does not deliver all of it. -/
  | reading (cause : StreamError)
  /-- The system does not follow its path, for its length or at a folder on the way. -/
  | unreachable (cause : FileError)

/-- What opening an entry with a fault gives. One that is not reached is taken for none. -/
def EntryFault.opened (path location : String) : EntryFault → Except Fault Container.Stream
  | opening cause => .error (.ofArchive location cause)
  | denied cause => .error (.io cause)
  | reading cause => .ok (.error cause)
  | unreachable _ => .error (.entryNotFound path location)

namespace Container

variable {fs : FileSystem} {c : Container} {path location : String} {f : EntryFault}

/-- A folder has a file where the path leads, however long it is and whatever the folders on the way
    refuse. An archive has an entry of the name. -/
def HasEntry (fs : FileSystem) (c : Container) (path : String) : Prop :=
  match c with
  | folder location _ =>
    let way := entryPath location path
    ∃ place access content, fs.unlock.locateNames .target (isAbsolutePath way) (pathSteps way)
      = .ok (.taken place (.file access content))
  | archive _ none => False
  | archive _ (some a) => ∃ e ∈ a.entries, e.name = path

/-- The entry of an open container has a fault. Of several with the same name the last one counts. -/
inductive Spoilt (fs : FileSystem) (path : String) : Container → EntryFault → Prop
  | opening {location : String} {a : Zip.Archive} {e : Zip.Entry} {cause : Zip.ArchiveError}
      (he : a.find? path = some e) (hs : e.dataStart a.bytes = .error cause) :
      Spoilt fs path (archive location (some a)) (.opening cause)
  | denied {location : String} {access : FileAccess} {content : ByteArray} {cause : FileError}
      (hf : fs.fileAt? (entryPath location path) = some (access, content))
      (hr : access.toRead = some cause) :
      Spoilt fs path (folder location false) (.denied cause)
  | damaged {location : String} {a : Zip.Archive} {e : Zip.Entry} {start : Nat}
      {cause : Zip.ReadError} (he : a.find? path = some e) (hf : e.isFolder = false)
      (hs : e.dataStart a.bytes = .ok start) (hr : e.readAt a.bytes start = .error cause) :
      Spoilt fs path (archive location (some a)) (.reading (.data cause))
  | torn {location : String} {access : FileAccess} {content : ByteArray} {cause : FileError}
      (hf : fs.fileAt? (entryPath location path) = some (access, content))
      (ho : access.toRead = none) (hr : access.midway = some cause) :
      Spoilt fs path (folder location false) (.reading (.file cause))
  | unreachable {location : String} {cause : FileError}
      (he : (folder location false).HasEntry fs path)
      (hr : fs.stat (entryPath location path) = .error cause) :
      Spoilt fs path (folder location false) (.unreachable cause)

/-- What opening a spoilt entry gives. -/
theorem Spoilt.open_eq (h : Spoilt fs path c f) : c.open fs path = f.opened path c.location := by
  cases h with
  | opening he hs =>
    show openEntry _ _ path = _
    simp only [openEntry, he, hs]
    rfl
  | denied hf hr =>
    simp only [Container.open, hf, openFile, hr]
    rfl
  | damaged he hf hs hr =>
    show openEntry _ _ path = _
    simp only [openEntry, he, hs, hf, hr]
    rfl
  | torn hf ho hr =>
    simp only [Container.open, hf, openFile, ho, hr]
    rfl
  | @unreachable location cause _ hr =>
    have hnone : fs.fileAt? (entryPath location path) = none := by
      rw [FileSystem.fileAt?, hr]
    simp only [Container.open, hnone]
    rfl

/-- An entry that is not reached is passed over. -/
theorem Spoilt.lacksEntry {cause : FileError} (h : Spoilt fs path c (.unreachable cause)) :
    c.LacksEntry fs path :=
  ⟨path, c.location, h.open_eq⟩

/-- What is found in a folder is there, whatever the folders on the way refuse to others. -/
theorem hasEntry_of_fileAt? {found : FileAccess × ByteArray} {closed : Bool}
    (h : fs.fileAt? (entryPath location path) = some found) :
    (folder location closed).HasEntry fs path := by
  obtain ⟨-, place, hplace⟩ := FileSystem.stat_eq_ok_iff.1 (FileSystem.fileAt?_eq_some_iff.1 h)
  exact ⟨place, found.1, found.2, FileSystem.walk_unlock hplace⟩

/-- An open container without an entry is passed over. -/
theorem lacksEntry_of_not_hasEntry (hc : c.isClosed = false) (h : ¬ c.HasEntry fs path) :
    c.LacksEntry fs path := by
  match c, hc, h with
  | folder location false, _, h =>
    rw [lacksEntry_folder_iff]
    exact Option.eq_none_iff_forall_ne_some.2 fun found hfound => h (hasEntry_of_fileAt? hfound)
  | archive location (some a), _, h =>
    refine lacksEntry_of_find?_eq_none (Zip.Archive.find?_eq_none_iff.2 fun e he hname => h ?_)
    exact ⟨e, he, hname⟩

/-- A file of a folder is found, or the way to it cannot be followed. -/
theorem fileAt?_of_hasEntry (h : (folder location false).HasEntry fs path) :
    (∃ found, fs.fileAt? (entryPath location path) = some found)
      ∨ ∃ cause, fs.stat (entryPath location path) = .error cause := by
  obtain ⟨place, access, content, hway⟩ := h
  -- Following the way without refusals tells what stands there, not whether it is reached.
  cases hs : fs.stat (entryPath location path) with
  | error cause => exact .inr ⟨cause, rfl⟩
  | ok n =>
    -- The way leads to the same place, so it is the file that stands there.
    obtain ⟨-, found, hfound⟩ := FileSystem.stat_eq_ok_iff.1 hs
    have hsame := (FileSystem.walk_unlock hfound).symm.trans hway
    obtain ⟨-, hn⟩ := FileSystem.Place.taken.inj (Except.ok.inj hsame)
    obtain rfl := Node.unlock_eq_file_iff.1 hn
    exact .inl ⟨(access, content), FileSystem.fileAt?_eq_some_iff.2 hs⟩

/-- The entry of a class file is read to its end, or it has a fault. -/
theorem exists_open_or_spoilt {t : List Char} (hc : c.isClosed = false)
    (hp : path.toList = t ++ ClassName.extension) (h : c.HasEntry fs path) :
    (∃ content, c.open fs path = .ok (.ok content)) ∨ ∃ f, Spoilt fs path c f := by
  match c, hc, h with
  | folder location false, _, h =>
    rcases fileAt?_of_hasEntry h with ⟨⟨access, content⟩, hf⟩ | ⟨cause, hr⟩
    · -- Each refusal on the way from the path to the last byte is a fault of its own.
      cases hread : access.toRead with
      | some cause => exact .inr ⟨_, .denied hf hread⟩
      | none =>
        cases hmid : access.midway with
        | some cause => exact .inr ⟨_, .torn hf hread hmid⟩
        | none =>
          refine .inl ⟨content, ?_⟩
          simp only [Container.open, hf, openFile, hread, hmid]
    · exact .inr ⟨_, .unreachable h hr⟩
  | archive location (some a), _, ⟨e', he', hname⟩ =>
    cases he : a.find? path with
    | none => exact absurd hname (Zip.Archive.find?_eq_none_iff.1 he e' he')
    | some e =>
      have hfile : e.isFolder = false :=
        isFolder_of_name ((Zip.Archive.name_of_find? he).2 ▸ hp)
      cases hs : e.dataStart a.bytes with
      | error cause => exact .inr ⟨_, .opening he hs⟩
      | ok start =>
        cases hr : e.readAt a.bytes start with
        | error cause => exact .inr ⟨_, .damaged he hfile hs hr⟩
        | ok content =>
          refine .inl ⟨content, ?_⟩
          show openEntry a location path = _
          simp only [openEntry, he, hs, hfile, hr]
          rfl

end Container

/-! ### Entries with a fault -/

namespace Sample

def sealed : ClassName := ⟨"Sealed"⟩

/-- An entry whose data cannot be had without a password. -/
def sealedEntry : Zip.Entry := ⟨"Sealed.class", true, .stored, 0, 1, 1, 0, false⟩

def sealedArchive : Zip.Archive := ⟨.empty, [sealedEntry]⟩

/-- An encrypted entry cannot be opened without a password. -/
theorem spoilt_sealed : (Container.archive "sealed.jar" (some sealedArchive)).Spoilt shadowedTree
    sealed.path (.opening .passwordRequired) :=
  .opening (e := sealedEntry) rfl rfl

theorem fileAt?_denied : shadowedTree.fileAt? (Container.entryPath "a" denied.path)
    = some ({ toRead := some .noPermission }, soundContent) :=
  Container.fileAt?_entryPath_of_at? stat_shadowing rfl (by decide) (by decide) (by decide)

/-- The file that may not be opened is there all the same. -/
theorem spoilt_denied : (Container.folder "a" false).Spoilt shadowedTree denied.path
    (.denied .noPermission) :=
  .denied fileAt?_denied rfl

/-- The folder has no class of that name. -/
theorem not_hasEntry_spoilt : ¬ (Container.folder "a" false).HasEntry shadowedTree spoilt.path := by
  have hnone : shadowedTree.root.unlock.at? [.ofText "a", .ofText "Spoilt.class"] = none := rfl
  rintro ⟨place, access, content, h⟩
  -- The way to it has no links, and nothing stands at its end.
  have hway : FileSystem.walk shadowedTree.root.unlock .target FileSystem.maxLinks []
      [.ofText "a", .ofText "Spoilt.class"] = .ok (.taken place (.file access content)) := h
  have hat := (FileSystem.at?_of_walk_below rfl (by decide) rfl hway).1
  simp [hnone] at hat

/-- The entry can be opened, and its data cannot be read. -/
theorem spoilt_spoilt : (Container.archive "spoilt.jar" (some spoiltArchive)).Spoilt shadowedTree
    spoilt.path (.reading (.data (.inflate .corrupt))) :=
  .damaged find?_spoilt isFolder_spoilt dataStart_spoilt readAt_spoilt

end Sample

namespace ClassPath

open Container (Spoilt)
open Sample (denied sealed sealedArchive shadowedTree spoilt spoiltArchive)

variable {fs : FileSystem} {cp : ClassPath} {name : ClassName} {c : Container}
  {before after : List Container}

/-- **What becomes of an entry that cannot be read.** On a class path of open containers, the first one
    that has an entry of the name decides, unless the system does not follow the path to the entry, which
    is taken for no entry. If the entry cannot be read to its end, the class is unreadable in that
    container. If it cannot be opened, the answer is the fault of the archive or of the system, not that
    the class is unreadable. An entry without a fault is decoded. -/
theorem load_of_first_entry (hopen : ∀ c ∈ cp.containers, c.isClosed = false)
    (hcp : cp.containers = before ++ c :: after) (hb : ∀ b ∈ before, ¬ b.HasEntry fs name.path)
    (hc : c.HasEntry fs name.path) :
    (∀ cause, Spoilt fs name.path c (.reading cause) →
        cp.load fs name = .error (.unreadable name c.location cause))
      ∧ (∀ cause, Spoilt fs name.path c (.opening cause) →
        cp.load fs name = .error (.ofArchive c.location cause))
      ∧ (∀ cause, Spoilt fs name.path c (.denied cause) → cp.load fs name = .error (.io cause))
      ∧ (∀ cause, Spoilt fs name.path c (.unreachable cause) →
        cp.load fs name = loadFrom fs name after)
      ∧ ((∀ f, ¬ Spoilt fs name.path c f) →
        ∃ content, c.open fs name.path = .ok (.ok content)
          ∧ cp.load fs name = decodeFile name content) := by
  have hb' : ∀ b ∈ before, b.LacksEntry fs name.path := by
    intro b hmem
    refine Container.lacksEntry_of_not_hasEntry (hopen b ?_) (hb b hmem)
    rw [hcp]
    exact List.mem_append_left _ hmem
  have hload : cp.load fs name = loadFrom fs name (c :: after) := by
    rw [load, hcp, loadFrom_append_of_lacksEntry hb']
  rw [hload]
  refine ⟨?_, ?_, ?_, ?_, ?_⟩
  · intro cause h
    rw [loadFrom, h.open_eq]
    rfl
  · intro cause h
    rw [loadFrom, h.open_eq]
    -- No fault of an archive is that the entry is not there.
    cases cause <;> rfl
  · intro cause h
    rw [loadFrom, h.open_eq]
    rfl
  · intro cause h
    exact loadFrom_cons_of_lacksEntry h.lacksEntry
  · intro hsound
    have hclosed : c.isClosed = false := hopen c (hcp ▸ by simp)
    obtain ⟨content, hcontent⟩ :=
      (Container.exists_open_or_spoilt hclosed name.toList_path hc).resolve_right
        (not_exists.2 hsound)
    exact ⟨content, hcontent, by rw [loadFrom, hcontent]⟩

/-- A class whose compressed data breaks the format is unreadable in its archive, behind a folder that
    does not have it and in front of one that has it. -/
theorem load_of_first_entry_spoilt :
    (⟨[.folder "a" false, .archive "spoilt.jar" (some spoiltArchive), .folder "b" false]⟩ :
        ClassPath).load shadowedTree spoilt
      = .error (.unreadable spoilt "spoilt.jar" (.data (.inflate .corrupt))) := by
  have hopen : ∀ c ∈ (⟨[.folder "a" false, .archive "spoilt.jar" (some spoiltArchive),
      .folder "b" false]⟩ : ClassPath).containers, c.isClosed = false := by
    simp [Container.isClosed]
  have hbefore : ∀ b ∈ [Container.folder "a" false], ¬ b.HasEntry shadowedTree spoilt.path := by
    simpa using Sample.not_hasEntry_spoilt
  have hentry : (Container.archive "spoilt.jar" (some spoiltArchive)).HasEntry shadowedTree
      spoilt.path :=
    ⟨Sample.spoiltEntry, List.mem_singleton_self _, by decide⟩
  exact (load_of_first_entry hopen rfl hbefore hentry).1 _ Sample.spoilt_spoilt

/-- An encrypted class file is there and cannot be read, and so is one that may not be opened, but the
    answer is not that they are unreadable. -/
theorem load_sealed_ne_unreadable :
    (Container.archive "sealed.jar" (some sealedArchive)).isClosed = false
      ∧ (Container.archive "sealed.jar" (some sealedArchive)).HasEntry shadowedTree sealed.path
      ∧ Spoilt shadowedTree sealed.path (.archive "sealed.jar" (some sealedArchive))
        (.opening .passwordRequired)
      ∧ (∀ location cause,
        (⟨[.archive "sealed.jar" (some sealedArchive)]⟩ : ClassPath).load shadowedTree sealed
          ≠ .error (.unreadable sealed location cause))
      ∧ (Container.folder "a" false).HasEntry shadowedTree denied.path
      ∧ Spoilt shadowedTree denied.path (.folder "a" false) (.denied .noPermission)
      ∧ ∀ location cause, (⟨[.folder "a" false]⟩ : ClassPath).load shadowedTree denied
        ≠ .error (.unreadable denied location cause) := by
  refine ⟨rfl, ⟨Sample.sealedEntry, List.mem_singleton_self _, by decide⟩, Sample.spoilt_sealed, ?_,
    Container.hasEntry_of_fileAt? Sample.fileAt?_denied, Sample.spoilt_denied, ?_⟩
  · intro location cause
    rw [load, loadFrom, Sample.spoilt_sealed.open_eq]
    simp [EntryFault.opened, Fault.ofArchive]
  · intro location cause
    rw [load, loadFrom, Sample.spoilt_denied.open_eq]
    simp [EntryFault.opened]

end ClassPath

end PrimaryDex
