import PrimaryDex.Proofs.ClassFile.References
import PrimaryDex.Proofs.ClassPath.RootContainer
import PrimaryDex.Proofs.Closure.Agreement

namespace PrimaryDex

/-!
# Folders and archives with the same files

A folder is searched name by name and an archive by the text of the whole path. They give the same
answers if they hold the same files.

* `Zip.Entry.Carries` — an entry is sound and expands to some content, which is then read from it
  (`openEntry_of_carries`);
* `Zip.Archive.Holds`, `Node.Holds` — an archive or a folder holds some files and no others;
* `Container.fileAt?_entryPath_iff`, `Container.open_archive_of_holds` — what they open for a path that
  only goes down is what they hold there, if the folder can look it up;
* `ClassPath.mapError_loadFrom_exchange` — hence they answer a name alike wherever they are searched;
* `ClassPath.exchange_folder_archive` — and they can be exchanged on every class path.
-/

/-! ### Entries of an archive -/

namespace Zip

namespace HeaderReader

variable {n : Nat} {bytes : List UInt8}

/-- Where the bytes suffice, as many as asked for are taken and the rest is left. -/
theorem run_take (h : n ≤ bytes.length) : (take n).run bytes = .ok (bytes.take n, bytes.drop n) := by
  have hlen : (bytes.take n).length = n := List.length_take_of_le h
  show (if (bytes.take n).length = n then _ else _) = _
  rw [if_pos hlen]

/-- Where the bytes suffice, they are read as a number with the lowest byte first. -/
theorem run_number (h : n ≤ bytes.length) :
    (number n).run bytes = .ok (littleEndian (bytes.take n), bytes.drop n) := by
  rw [number, StateT.run_map, run_take h]
  rfl

/-- Skipping succeeds even where fewer bytes are left. -/
theorem run_skip (n : Nat) (bytes : List UInt8) : (skip n).run bytes = .ok ((), bytes.drop n) := rfl

end HeaderReader

variable {e : Entry} {a : Archive} {bytes content : ByteArray} {location path : String}

/-- The header in front of the data of an entry, up to the lengths of its name and extra fields. -/
def Entry.header (e : Entry) (bytes : ByteArray) : List UInt8 := window bytes e.position 30

/-- Where the data stands, behind a header and its name and extra fields. -/
def Entry.dataPlace (e : Entry) (bytes : ByteArray) : Nat :=
  e.position + (30 + littleEndian (((e.header bytes).drop 26).take 2)
    + littleEndian (((e.header bytes).drop 28).take 2))

/-- The entry is not encrypted, is stored or deflated behind a sound header, and has the checksum of the
    content that its data expands to. -/
structure Entry.Carries (e : Entry) (bytes content : ByteArray) : Prop where
  plain : e.isEncrypted = false
  unmarked : e.hasEncryptionField = false
  method : e.method = .stored ∨ e.method = .deflated
  room : (e.header bytes).length = 30
  signature : littleEndian ((e.header bytes).take 4) = Entry.signature
  data : e.expand (window bytes (e.dataPlace bytes) e.compressedSize) = .ok content
  checksum : e.checksum = crc32 content

/-- The data of a sound entry stands behind its header. -/
theorem Entry.Carries.dataStart_eq (h : e.Carries bytes content) :
    e.dataStart bytes = .ok (e.dataPlace bytes) := by
  have ok_bind {ε α β : Type} (a : α) (f : α → Except ε β) : (Except.ok a >>= f) = f a := rfl
  have hroom : (window bytes e.position 30).length = 30 := h.room
  have hsignature : littleEndian ((window bytes e.position 30).take 4) = Entry.signature :=
    h.signature
  unfold Entry.dataStart HeaderReader.at
  -- All numbers of the header are within its thirty bytes.
  simp (disch := simp [hroom]) only [h.plain, h.unmarked, hsignature, ok_bind, StateT.run_bind,
    StateT.run_pure, HeaderReader.run_number, HeaderReader.run_skip, List.drop_drop, ne_eq,
    not_true_eq_false, if_false, Bool.false_eq_true]
  -- Either method is one that can be read.
  rcases h.method with hm | hm
  · rw [hm]
    rfl
  · rw [hm]
    rfl

/-- What is read from there is the content. -/
theorem Entry.Carries.readAt_eq (h : e.Carries bytes content) :
    e.readAt bytes (e.dataPlace bytes) = .ok content := by
  rw [Entry.readAt, h.data]
  exact if_pos h.checksum.symm

/-- The archive has an entry for each of some files, and its entries that are no folders carry the files
    of their names. -/
structure Archive.Holds (a : Archive) (files : List (String × ByteArray)) : Prop where
  entry : ∀ f ∈ files, ∃ e ∈ a.entries, e.name = f.1
  carries : ∀ e ∈ a.entries, e.isFolder = false →
    ∃ content, (e.name, content) ∈ files ∧ e.Carries a.bytes content

end Zip

/-- An archive gives out what its entry of the name carries. -/
theorem Container.openEntry_of_carries {a : Zip.Archive} {e : Zip.Entry} {content : ByteArray}
    {path : String} (hf : a.find? path = some e) (h : e.Carries a.bytes content)
    (hfile : e.isFolder = false) (location : String) :
    openEntry a location path = .ok (.ok content) := by
  simp only [openEntry, hf, h.dataStart_eq, hfile, h.readAt_eq]
  rfl

/-! ### Containers with the same files -/

/-- The files that paths lead to in the folder are these, and there are no links in it. -/
structure Node.Holds (n : Node) (files : List (String × ByteArray)) : Prop where
  file_iff : ∀ path content,
    (∃ access, n.at? (pathSteps path) = some (.file access content)) ↔ (path, content) ∈ files
  not_link : ∀ names target, n.at? names ≠ some (.link target)

/-- Names that come to a link lead to one, if they stop there. -/
theorem Node.exists_link_of_meetsLink {n : Node} {names : List FileName}
    (h : n.meetsLink names = true) : ∃ front target, n.at? front = some (.link target) := by
  induction names generalizing n with
  | nil =>
    cases n with
    | link target => exact ⟨[], target, rfl⟩
    | _ => simp [meetsLink] at h
  | cons name names ih =>
    cases n with
    | link target => exact ⟨[], target, rfl⟩
    | folder _ es =>
      cases hl : es.lookup name with
      | none => simp [meetsLink, entries, hl] at h
      | some child =>
        -- The way goes on in the child, and the link below it is one below the folder.
        obtain ⟨front, target, hfront⟩ := ih (n := child) (by simpa [meetsLink, entries, hl] using h)
        exact ⟨name :: front, target, by simpa [at?, entries, hl] using hfront⟩
    | _ => simp [meetsLink, entries] at h

/-- Whether all names of a path lead down. -/
def isStraight (path : String) : Bool := (pathNames path).all fun name => goesDown (.ofText name)

namespace Container

variable {fs : FileSystem} {access : FolderAccess} {es : List (FileName × Node)} {a : Zip.Archive}
  {files : List (String × ByteArray)} {path location : String} {content : ByteArray}
  {fileAccess : FileAccess}

/-- The path goes down only, and if the folder at the location has a file for it, that can be found and
    read to its end. -/
structure Fits (fs : FileSystem) (location path : String) : Prop where
  straight : isStraight path = true
  sound : ∀ n access content, fs.stat location = .ok n →
    n.at? (pathSteps path) = some (.file access content) →
      (folder location false).isSealed fs path = false ∧ access.refusal? = none

/-- The file at a path in a folder without links is the one that stands there, if it can be found. -/
theorem fileAt?_entryPath_iff (ho : fs.isOrderly = true)
    (hs : fs.stat location = .ok (.folder access es)) (hf : (Node.folder access es).Holds files)
    (hp : Fits fs location path) :
    fs.fileAt? (entryPath location path) = some (fileAccess, content)
      ↔ (Node.folder access es).at? (pathSteps path) = some (.file fileAccess content) := by
  have hdown : ∀ name ∈ pathNames path, goesDown (.ofText name) = true := by
    simpa [isStraight] using hp.straight
  -- Without links, names lead to what stands at them and nowhere else.
  have hlink : (Node.folder access es).meetsLink (pathSteps path) = false := by
    rw [← Bool.not_eq_true]
    intro hm
    obtain ⟨front, target, hfront⟩ := Node.exists_link_of_meetsLink hm
    exact hf.not_link front target hfront
  constructor
  · exact fun hfile => (at?_of_fileAt?_entryPath hs hdown hlink hfile).1
  · intro hm
    obtain ⟨hsize, hopen⟩ := (isSealed_folder_eq_false_iff hs).1 (hp.sound _ _ _ hs hm).1
    exact fileAt?_entryPath_of_at? hs hm
      (fun _ => isEntryName_of_at? (FileSystem.isOrderly_of_stat ho hs) hm) hopen hsize

/-- The entry at a path that fits is the file that the folder holds. -/
theorem open_folder_of_holds (ho : fs.isOrderly = true)
    (hs : fs.stat location = .ok (.folder access es)) (hf : (Node.folder access es).Holds files)
    (hp : Fits fs location path) (hm : (path, content) ∈ files) :
    (folder location false).open fs path = .ok (.ok content) := by
  obtain ⟨fileAccess, hat⟩ := (hf.file_iff path content).2 hm
  have hfile := (fileAt?_entryPath_iff ho hs hf hp).2 hat
  simp only [Container.open, hfile]
  exact openFile_eq_ok_iff.2 ⟨(hp.sound _ _ _ hs hat).2, rfl⟩

/-- The folder is passed over for what it does not hold. -/
theorem lacksEntry_folder_of_holds (ho : fs.isOrderly = true)
    (hs : fs.stat location = .ok (.folder access es)) (hf : (Node.folder access es).Holds files)
    (hp : Fits fs location path) (hm : ∀ content, (path, content) ∉ files) :
    (folder location false).LacksEntry fs path := by
  rw [lacksEntry_folder_iff, Option.eq_none_iff_forall_ne_some]
  rintro ⟨fileAccess, content⟩ hfile
  have hat := (fileAt?_entryPath_iff ho hs hf hp).1 hfile
  exact hm content ((hf.file_iff path content).1 ⟨fileAccess, hat⟩)

/-- A file that can be found is not given out if the system refuses it. -/
theorem open_folder_of_refusal (ho : fs.isOrderly = true)
    (hs : fs.stat location = .ok (.folder access es))
    (hm : (Node.folder access es).at? (pathSteps path) = some (.file fileAccess content))
    (hl : (folder location false).isSealed fs path = false) (hr : fileAccess.refusal? ≠ none) :
    ∃ cause, (folder location false).open fs path = .error (.io cause)
      ∨ (folder location false).open fs path = .ok (.error (.file cause)) := by
  obtain ⟨hsize, hopen⟩ := (isSealed_folder_eq_false_iff hs).1 hl
  have hentry : ∀ name ∈ pathNames path, isEntryName (.ofText name) = true :=
    fun _ => isEntryName_of_at? (FileSystem.isOrderly_of_stat ho hs) hm
  rw [open_folder_of_at? path hs hm hentry hopen hsize, openFile]
  cases hread : fileAccess.toRead with
  | some cause => exact ⟨cause, .inl rfl⟩
  | none =>
    cases hmid : fileAccess.midway with
    | some cause => exact ⟨cause, .inr rfl⟩
    | none => simp [FileAccess.refusal?, hread, hmid] at hr

/-- The entry at the path of a class file is the file that the archive holds. -/
theorem open_archive_of_holds {name : ClassName} (hf : (Node.folder access es).Holds files)
    (ha : a.Holds files) (hm : (name.path, content) ∈ files) :
    (archive location (some a)).open fs name.path = .ok (.ok content) := by
  obtain ⟨e, he, hname⟩ := ha.entry _ hm
  have hfound : a.find? name.path ≠ none := by
    intro hnone
    exact Zip.Archive.find?_eq_none_iff.1 hnone e he hname
  obtain ⟨e', he'⟩ := Option.ne_none_iff_exists'.1 hfound
  obtain ⟨hmem, hname'⟩ := Zip.Archive.name_of_find? he'
  -- The path ends as a class file's does, so that its entry is no folder's.
  have hfile : e'.isFolder = false := isFolder_of_name (hname' ▸ name.toList_path)
  obtain ⟨content', hm', hcarries⟩ := ha.carries e' hmem hfile
  rw [hname'] at hm'
  -- The folder has one file at the path.
  obtain ⟨access', hat'⟩ := (hf.file_iff name.path content').2 hm'
  obtain ⟨access'', hat⟩ := (hf.file_iff name.path content).2 hm
  obtain ⟨-, rfl⟩ := Node.file.inj (Option.some.inj (hat'.symm.trans hat))
  exact openEntry_of_carries he' hcarries hfile location

/-- An archive is passed over for the class files that it does not hold. -/
theorem lacksEntry_of_holds {name : ClassName} (ha : a.Holds files)
    (hm : ∀ content, (name.path, content) ∉ files) :
    (archive location (some a)).LacksEntry fs name.path := by
  rw [lacksEntry_archive_iff_ne name.toList_path]
  intro e he hname
  have hfile : e.isFolder = false := isFolder_of_name (hname ▸ name.toList_path)
  obtain ⟨content, hcontent, -⟩ := ha.carries e he hfile
  exact hm content (hname ▸ hcontent)

end Container

/-! ### Class paths -/

/-- A fault without the text that tells where it was found. -/
def Fault.unplaced : Fault → Fault
  | invalidLocation _ cause => .invalidLocation "" cause
  | locationNotFound _ => .locationNotFound ""
  | entryNotFound entry _ => .entryNotFound entry ""
  | closed _ => .closed ""
  | unreadable name _ cause => .unreadable name "" cause
  | archive _ cause => .archive "" cause
  | brokenOff _ => .brokenOff ""
  | fault => fault

/-- Leaving out locations does not turn a fault into a missing class or back. -/
theorem Fault.keepsAbsence_unplaced : KeepsAbsence unplaced := by
  intro fault m
  cases fault <;> simp [unplaced]

namespace ClassPath

open Container

variable {fs : FileSystem} {access : FolderAccess} {es : List (FileName × Node)} {a : Zip.Archive}
  {files : List (String × ByteArray)} {name : ClassName} {location location' : String}
  {before after : List Container}

/-- Containers that are passed over alike and answer alike can be exchanged at any place. -/
theorem mapError_loadFrom_append {reword : Fault → Fault} {c d : Container}
    (hlacks : c.LacksEntry fs name.path ↔ d.LacksEntry fs name.path)
    (hanswer : ¬ c.LacksEntry fs name.path →
      (d.answer fs name).mapError reword = (c.answer fs name).mapError reword)
    (before after : List Container) :
    (loadFrom fs name (before ++ d :: after)).mapError reword
      = (loadFrom fs name (before ++ c :: after)).mapError reword := by
  rcases forall_lacksEntry_or_exists_first fs name.path before with hb | ⟨bs, b, cs, rfl, hbs, hb⟩
  · rw [loadFrom_append_of_lacksEntry hb, loadFrom_append_of_lacksEntry hb]
    by_cases hc : c.LacksEntry fs name.path
    · rw [loadFrom_cons_of_lacksEntry hc, loadFrom_cons_of_lacksEntry (hlacks.1 hc)]
    · rw [loadFrom_cons_of_not_lacksEntry hc,
        loadFrom_cons_of_not_lacksEntry (mt hlacks.2 hc), hanswer hc]
  · -- An earlier container decides.
    simp only [List.append_assoc, List.cons_append]
    rw [loadFrom_eq hbs hb, loadFrom_eq hbs hb]

/-- A folder and an archive with the same files, open or both closed, can be exchanged. -/
theorem mapError_loadFrom_exchange (ho : fs.isOrderly = true)
    (hs : fs.stat location = .ok (.folder access es)) (hf : (Node.folder access es).Holds files)
    (ha : a.Holds files) (hp : Fits fs location name.path) (closed : Bool)
    (before after : List Container) :
    (loadFrom fs name (before ++
        .archive location' (if closed then none else some a) :: after)).mapError Fault.unplaced
      = (loadFrom fs name (before ++ .folder location closed :: after)).mapError Fault.unplaced := by
  cases closed with
  | true =>
    -- Closed, both refuse every entry, and the faults differ in the location alone.
    have hfolder := open_of_isClosed (c := .folder location true) rfl fs name.path
    have harchive := open_of_isClosed (c := .archive location' none) rfl fs name.path
    refine mapError_loadFrom_append ?_ (fun _ => ?_) before after
    · exact iff_of_false (not_lacksEntry_of_isClosed rfl) (not_lacksEntry_of_isClosed rfl)
    · show ((archive location' none).answer fs name).mapError _ = _
      rw [answer, answer, hfolder, harchive]
      rfl
  | false =>
    by_cases hm : ∃ content, (name.path, content) ∈ files
    · obtain ⟨content, hm⟩ := hm
      have hfolder : (folder location false).open fs name.path = .ok (.ok content) :=
        open_folder_of_holds ho hs hf hp hm
      have harchive : (archive location' (some a)).open fs name.path = .ok (.ok content) :=
        open_archive_of_holds hf ha hm
      refine mapError_loadFrom_append ?_ (fun _ => ?_) before after
      · simp [LacksEntry, hfolder, harchive]
      · simp [answer, hfolder, harchive]
    · have hm' : ∀ content, (name.path, content) ∉ files := fun content hc => hm ⟨content, hc⟩
      have hfolder : (folder location false).LacksEntry fs name.path :=
        lacksEntry_folder_of_holds ho hs hf hp hm'
      have harchive : (archive location' (some a)).LacksEntry fs name.path :=
        lacksEntry_of_holds ha hm'
      exact mapError_loadFrom_append (iff_of_true hfolder harchive)
        (fun hnot => absurd hfolder hnot) before after

end ClassPath

/-! ### A folder and an archive with the same class files -/

namespace Sample

/-- The files of both. -/
def libraryFiles : List (String × ByteArray) :=
  [("Tool.class", toolContent), ("p/Frame.class", frameContent), ("p/note", ⟨#[0x67]⟩)]

/-- A header without names in front of an entry's data. -/
def localHeader : Array UInt8 := #[0x50, 0x4b, 0x03, 0x04] ++ Array.replicate 26 0

/-- The class files are stored. -/
def toolEntry : Zip.Entry :=
  ⟨"Tool.class", false, .stored, Zip.crc32 toolContent, 63, 63, 0, false⟩
def frameEntry : Zip.Entry :=
  ⟨"p/Frame.class", false, .stored, Zip.crc32 frameContent, 31, 31, 93, false⟩

/-- The note is deflated, to one block without compression. -/
def noteEntry : Zip.Entry :=
  ⟨"p/note", false, .deflated, Zip.crc32 ⟨#[0x67]⟩, 1, 6, 154, false⟩

def libraryArchive : Zip.Archive where
  bytes := ⟨localHeader ++ toolContent.data ++ localHeader ++ frameContent.data ++ localHeader
    ++ #[1, 1, 0, 0xfe, 0xff, 0x67]⟩
  entries := [toolEntry, ⟨"p/", false, .stored, 0, 0, 0, 154, false⟩, frameEntry, noteEntry]

/-- An entry behind such a header carries what its data expands to. -/
theorem carries_of_localHeader {e : Zip.Entry} {content : ByteArray} (data : List UInt8)
    (hplain : e.isEncrypted = false ∧ e.hasEncryptionField = false)
    (hmethod : e.method = .stored ∨ e.method = .deflated)
    (hheader : Zip.window libraryArchive.bytes e.position 30 = localHeader.toList)
    (hdata : Zip.window libraryArchive.bytes (e.position + 30) e.compressedSize = data)
    (hexpand : e.expand data = .ok content) (hchecksum : e.checksum = Zip.crc32 content) :
    e.Carries libraryArchive.bytes content := by
  have hplace : e.dataPlace libraryArchive.bytes = e.position + 30 := by
    rw [Zip.Entry.dataPlace, Zip.Entry.header, hheader]
    rfl
  refine ⟨hplain.1, hplain.2, hmethod, ?_, ?_, ?_, hchecksum⟩
  · rw [Zip.Entry.header, hheader]
    rfl
  · rw [Zip.Entry.header, hheader]
    decide
  · rw [hplace, hdata, hexpand]

/-- Stored data expands to itself. -/
theorem carries_toolEntry : toolEntry.Carries libraryArchive.bytes toolContent :=
  carries_of_localHeader toolContent.data.toList ⟨rfl, rfl⟩ (.inl rfl) (by decide +kernel)
    (by decide +kernel) rfl rfl

theorem carries_frameEntry : frameEntry.Carries libraryArchive.bytes frameContent :=
  carries_of_localHeader frameContent.data.toList ⟨rfl, rfl⟩ (.inl rfl) (by decide +kernel)
    (by decide +kernel) rfl rfl

/-- Deflated data expands to what it was made from. -/
theorem carries_noteEntry : noteEntry.Carries libraryArchive.bytes ⟨#[0x67]⟩ := by
  have hinflate : Zip.inflate [1, 1, 0, 0xfe, 0xff, 0x67] = .ok ⟨#[0x67]⟩ := by
    rw [Zip.inflate, Zip.expandBlocks]
    rfl
  refine carries_of_localHeader [1, 1, 0, 0xfe, 0xff, 0x67] ⟨rfl, rfl⟩ (.inr rfl)
    (by decide +kernel) (by decide +kernel) ?_ rfl
  simp only [Zip.Entry.expand, noteEntry, hinflate]

/-- The archive has the three files, and the entry of the subfolder is none of them. -/
theorem holds_libraryArchive : libraryArchive.Holds libraryFiles where
  entry := by
    intro f hf
    simp only [libraryFiles, List.mem_cons, List.not_mem_nil, or_false] at hf
    rcases hf with rfl | rfl | rfl
    · exact ⟨toolEntry, by simp [libraryArchive], rfl⟩
    · exact ⟨frameEntry, by simp [libraryArchive], rfl⟩
    · exact ⟨noteEntry, by simp [libraryArchive], rfl⟩
  carries := by
    intro e he hfile
    simp only [libraryArchive, List.mem_cons, List.not_mem_nil, or_false] at he
    rcases he with rfl | rfl | rfl | rfl
    · exact ⟨toolContent, by simp [libraryFiles, toolEntry], carries_toolEntry⟩
    · -- The entry of the subfolder.
      simp [Zip.Entry.isFolder] at hfile
    · exact ⟨frameContent, by simp [libraryFiles, frameEntry], carries_frameEntry⟩
    · exact ⟨⟨#[0x67]⟩, by simp [libraryFiles, noteEntry], carries_noteEntry⟩

/-- What stands in a folder of texts stands below one of its entries. -/
theorem exists_of_at?_ofEntries {es : List (String × Node)} {names : List FileName} {m : Node}
    (ho : (Node.ofEntries es).isOrderly = true) (h : (Node.ofEntries es).at? names = some m) :
    names = [] ∧ m = .ofEntries es ∨ ∃ e ∈ es, ∃ rest, names = .ofText e.1 :: rest
      ∧ e.2.at? rest = some m := by
  cases names with
  | nil => exact .inl ⟨rfl, (Option.some.inj h).symm⟩
  | cons name rest =>
    obtain ⟨access, es', hes, child, hl, h⟩ := Node.exists_of_at?_cons h
    obtain ⟨-, rfl⟩ := Node.folder.inj hes
    obtain ⟨e, he, heq⟩ := List.mem_map.1 ((Node.lookup_eq_some_iff ho).1 hl)
    obtain ⟨rfl, rfl⟩ := Prod.mk.inj heq
    exact .inr ⟨e, he, rest, rfl, h⟩

/-- Below a file there is nothing. -/
theorem eq_nil_of_at?_ofContent {content : ByteArray} {names : List FileName} {m : Node}
    (h : (Node.ofContent content).at? names = some m) : names = [] ∧ m = .ofContent content := by
  cases names with
  | nil => exact ⟨rfl, (Option.some.inj h).symm⟩
  | cons name rest => simp [Node.ofContent, Node.at?, Node.entries] at h

/-- In the folder there are two folders, the folder itself among them, and the files. -/
theorem at?_library {names : List FileName} {n : Node} (h : library.at? names = some n) :
    n.isFolder = true ∨ ∃ f ∈ libraryFiles, names = pathSteps f.1 ∧ n = .ofContent f.2 := by
  rcases exists_of_at?_ofEntries (by decide) h with ⟨-, rfl⟩ | ⟨e, he, rest, rfl, hrest⟩
  · exact .inl rfl
  simp only [List.mem_cons, List.not_mem_nil, or_false] at he
  rcases he with rfl | rfl
  · obtain ⟨rfl, rfl⟩ := eq_nil_of_at?_ofContent hrest
    exact .inr ⟨("Tool.class", toolContent), by simp [libraryFiles], by decide, rfl⟩
  · -- The subfolder.
    rcases exists_of_at?_ofEntries (by decide) hrest with ⟨-, rfl⟩ | ⟨e, he, rest, rfl, hlast⟩
    · exact .inl rfl
    simp only [List.mem_cons, List.not_mem_nil, or_false] at he
    rcases he with rfl | rfl
    · obtain ⟨rfl, rfl⟩ := eq_nil_of_at?_ofContent hlast
      exact .inr ⟨("p/note", ⟨#[0x67]⟩), by simp [libraryFiles], by decide, rfl⟩
    · obtain ⟨rfl, rfl⟩ := eq_nil_of_at?_ofContent hlast
      exact .inr ⟨("p/Frame.class", frameContent), by simp [libraryFiles], by decide, rfl⟩

/-- The folder has the same files. -/
theorem holds_library : library.Holds libraryFiles where
  file_iff := by
    intro path content
    constructor
    · rintro ⟨access, h⟩
      rcases at?_library h with hfolder | ⟨f, hf, hpath, hfile⟩
      · simp [Node.isFolder] at hfolder
      · obtain ⟨-, rfl⟩ := Node.file.inj hfile
        rw [← Container.pathText_pathSteps path, hpath, Container.pathText_pathSteps]
        exact hf
    · intro hm
      refine ⟨{}, ?_⟩
      simp only [libraryFiles, List.mem_cons, Prod.mk.injEq, List.not_mem_nil, or_false] at hm
      rcases hm with ⟨rfl, rfl⟩ | ⟨rfl, rfl⟩ | ⟨rfl, rfl⟩ <;> rfl
  not_link := by
    intro names target h
    rcases at?_library h with hfolder | ⟨f, -, -, hfile⟩
    · simp [Node.isFolder] at hfolder
    · simp [Node.ofContent] at hfile

/-- What is decoded from the class files. -/
def toolFile : ClassFile :=
  ⟨⟨"Tool", some ⟨"p/Frame"⟩, [], ⟨#[none, some (.utf8 "Tool"), some (.classRef 1),
    some (.utf8 "p/Frame"), some (.classRef 3), some (.utf8 "Tool.class/Below"), some (.classRef 5)]⟩⟩,
    tool⟩
def frameFile : ClassFile :=
  ⟨⟨"p/Frame", none, [], ⟨#[none, some (.utf8 "p/Frame"), some (.classRef 1)]⟩⟩, frame⟩

/-- The folder is searched between two others. -/
def folderBetween : ClassPath :=
  ⟨[.folder "first" false, .folder (libSlashes 1) false, .folder "last" false]⟩

/-- So is the archive. -/
def archiveBetween : ClassPath :=
  ⟨[.folder "first" false, .archive "lib.jar" (some libraryArchive), .folder "last" false]⟩

open Container (Fits)

/-- The names of all three classes fit the folder. -/
theorem fits_library : ∀ n ∈ [tool, frame, below], Fits libraryTree (libSlashes 1) n.path := by
  have hs : libraryTree.stat (libSlashes 1) = .ok library := stat_libSlashes (by decide)
  refine fun n hn => ⟨?_, fun m access content hm hat => ?_⟩
  · revert n
    decide
  · obtain rfl := Except.ok.inj (hs.symm.trans hm)
    rw [Container.isSealed_folder_eq_false_iff hs]
    rcases at?_library hat with hfolder | ⟨f, -, -, hfile⟩
    · simp [Node.isFolder] at hfolder
    · obtain ⟨rfl, -⟩ := Node.file.inj hfile
      refine ⟨?_, rfl⟩
      clear hat
      revert n
      decide

/-- The folder gives out the files that it holds. -/
theorem open_library {n : ClassName} {content : ByteArray} (hn : n ∈ [tool, frame, below])
    (hm : (n.path, content) ∈ libraryFiles) :
    (Container.folder (libSlashes 1) false).open libraryTree n.path = .ok (.ok content) :=
  Container.open_folder_of_holds (by decide) (stat_libSlashes (by decide)) holds_library
    (fits_library n hn) hm

/-- The folder in front has none of the classes. -/
theorem lacksEntry_first : ∀ n ∈ [tool, frame, below],
    (Container.folder "first" false).LacksEntry libraryTree n.path := by
  have hs : libraryTree.stat "first"
      = .ok (.ofEntries [("Sound.class", .ofContent soundContent)]) :=
    FileSystem.stat_of_at? (by decide) (by decide) rfl rfl nofun (by decide) (by decide)
  refine fun n hn => Container.lacksEntry_folder_of_at? hs ?_ ?_ (Option.isNone_iff_eq_none.1 ?_) <;>
  · revert n
    decide

/-- What the folder holds is decoded. -/
theorem load_library {n : ClassName} {content : ByteArray} (hn : n ∈ [tool, frame, below])
    (hm : (n.path, content) ∈ libraryFiles) :
    folderBetween.load libraryTree n = ClassPath.decodeFile n content := by
  have hcp : folderBetween.containers
      = [.folder "first" false] ++ .folder (libSlashes 1) false :: [.folder "last" false] := rfl
  have hopen := open_library hn hm
  rw [ClassPath.load, hcp, ClassPath.loadFrom_eq, Container.answer, hopen]
  · simpa using lacksEntry_first n hn
  · rintro ⟨entry, location, h⟩
    simp [hopen] at h

theorem decodeFile_tool : ClassPath.decodeFile tool toolContent = .ok toolFile := by
  decide +kernel

/-- The search passes over the folder in front and ends before the damaged file behind. -/
theorem load_tool : folderBetween.load libraryTree tool = .ok toolFile := by
  have hpath : tool.path = "Tool.class" := by decide
  rw [load_library (List.mem_cons_self ..) (by rw [hpath]; exact List.mem_cons_self ..)]
  exact decodeFile_tool

/-- The class in the subfolder is found by its path. -/
theorem load_frame : folderBetween.load libraryTree frame = .ok frameFile := by
  have hpath : frame.path = "p/Frame.class" := by decide
  rw [load_library (.tail _ (List.mem_cons_self ..)) (by rw [hpath]; exact .tail _ (.head _))]
  decide +kernel

theorem find_tool : (folderBetween.source libraryTree).find tool = .ok toolFile := load_tool

theorem find_frame : (folderBetween.source libraryTree).find frame = .ok frameFile := load_frame

/-- Below a file nothing is found, neither in the folder nor in those around it. -/
theorem lacks_below : (folderBetween.source libraryTree).Lacks below := by
  have hbelow : below ∈ [tool, frame, below] := by decide
  have hpath : below.path = "Tool.class/Below.class" := by decide
  have hlib : (Container.folder (libSlashes 1) false).LacksEntry libraryTree below.path := by
    refine Container.lacksEntry_folder_of_holds (by decide) (stat_libSlashes (by decide)) holds_library
      (fits_library below hbelow) fun content => ?_
    simp [libraryFiles, hpath]
  have hs : libraryTree.stat "last" = .ok (.ofEntries [("Tool.class", .ofContent ⟨#[0x67]⟩)]) :=
    FileSystem.stat_of_at? (by decide) (by decide) rfl rfl nofun (by decide) (by decide)
  have hlast : (Container.folder "last" false).LacksEntry libraryTree below.path :=
    Container.lacksEntry_folder_of_at? hs (by decide) (by decide)
      (Option.isNone_iff_eq_none.1 (by decide))
  rw [ClassPath.lacks_source_iff]
  simpa [folderBetween] using ⟨lacksEntry_first below hbelow, hlib, hlast⟩

/-- The class refers to the one that is nowhere as well. -/
theorem referenced_tool : toolFile.referenced = .ok [tool, frame, below] := by
  have h : toolFile.pool.entries.mapM (fun x => toolFile.pool.classesOf x.2)
      = .ok [[], [tool], [], [frame], [], [below]] := by decide
  have hrefs : toolFile.references = .ok [tool, frame, below] :=
    ClassHeader.references_eq_ok_iff.2 ⟨_, h, by rw [firstOccurrences_eq_eraseDups]; decide⟩
  rw [ClassFile.referenced, hrefs]

theorem referenced_frame : frameFile.referenced = .ok [frame] := by
  have h : frameFile.pool.entries.mapM (fun x => frameFile.pool.classesOf x.2)
      = .ok [[], [frame]] := by decide
  have hrefs : frameFile.references = .ok [frame] :=
    ClassHeader.references_eq_ok_iff.2 ⟨_, h, by rw [firstOccurrences_eq_eraseDups]; decide⟩
  rw [ClassFile.referenced, hrefs]

/-- The superclass has no ancestors of its own. -/
theorem lineage_tool : (folderBetween.source libraryTree).lineage [tool].contains toolFile.ancestors
    = .ok [frame] := by
  show (folderBetween.source libraryTree).lineage [tool].contains [frame] = _
  rw [ClassSource.lineage_cons_of_find (by decide) find_frame]
  show (frame :: ·) <$> (folderBetween.source libraryTree).lineage _ [] = _
  rw [ClassSource.lineage_nil]
  rfl

/-- The class below the file is asked for and dropped. -/
theorem closure_folderBetween : folderBetween.closure libraryTree [tool] = .ok [tool, frame] := by
  have start : Stage.start [tool] = ⟨[], [tool]⟩ := by decide
  have tool_settled : Stage.settle ⟨[], []⟩ tool [frame] [tool, frame, below]
      = ⟨[tool], [frame, below]⟩ := by decide
  have frame_settled : Stage.settle ⟨[tool], [below]⟩ frame [] [frame]
      = ⟨[tool, frame], [below]⟩ := by decide
  have tool_step : Stage.Step (folderBetween.source libraryTree) [tool] ⟨[], [tool]⟩ _ :=
    .settle find_tool lineage_tool referenced_tool
  have frame_step : Stage.Step (folderBetween.source libraryTree) [tool] ⟨[tool], [frame, below]⟩ _ :=
    .settle find_frame (ClassSource.lineage_nil _) referenced_frame
  have below_step : Stage.Step (folderBetween.source libraryTree) [tool] ⟨[tool, frame], [below]⟩
      ⟨[tool, frame], []⟩ :=
    .drop lacks_below (by decide)
  rw [tool_settled] at tool_step
  rw [frame_settled] at frame_step
  unfold ClassPath.closure
  rw [ClassSource.closure_eq_ok_iff, start]
  exact .head tool_step (.head frame_step (.single below_step))

/-- Two of the three classes are found, and each is what its file holds. -/
theorem eq_of_find {n : ClassName} {c : ClassFile} (hn : n ∈ [tool, frame, below])
    (hc : (folderBetween.source libraryTree).find n = .ok c) : c = toolFile ∨ c = frameFile := by
  simp only [List.mem_cons, List.not_mem_nil, or_false] at hn
  rcases hn with rfl | rfl | rfl
  · exact .inl (Except.ok.inj (hc.symm.trans find_tool))
  · exact .inr (Except.ok.inj (hc.symm.trans find_frame))
  · exact absurd ⟨c, hc⟩ fun h => ClassSource.Has.not_lacks h lacks_below

/-- The root leads to no classes but the three. -/
theorem mem_of_reached {n : ClassName}
    (hn : (folderBetween.source libraryTree).Reached [tool] n) : n ∈ [tool, frame, below] := by
  -- By induction on the way from the root: whatever is found is one of two class files, and these
  -- lead no further.
  induction hn with
  | root hr =>
    obtain rfl := List.mem_singleton.1 hr
    decide
  | ancestor _ hc hm ih =>
    rcases eq_of_find ih hc with rfl | rfl
    · obtain rfl := List.mem_singleton.1 hm
      decide
    · simp [frameFile, ClassHeader.ancestors] at hm
  | reference _ hc hr hm ih =>
    rcases eq_of_find ih hc with rfl | rfl
    · rwa [Except.ok.inj (hr.symm.trans referenced_tool)] at hm
    · rw [Except.ok.inj (hr.symm.trans referenced_frame)] at hm
      obtain rfl := List.mem_singleton.1 hm
      decide

end Sample

namespace ClassPath

open Container
open Sample (archiveBetween below folderBetween frame libSlashes library libraryArchive libraryFiles
  libraryTree tool)

variable {fs : FileSystem} {access : FolderAccess} {es : List (FileName × Node)} {a : Zip.Archive}
  {files : List (String × ByteArray)} {location : String}

/-- **A folder and an archive with the same files can be exchanged.** At any place of any class path,
    open or both closed, they lead to the same outcome of a look-up and to the same closure, up to the
    locations in faults, for names whose paths fit. The archive gives out the files whose paths do not,
    and the folder is passed over for them or fails over what the system refuses. -/
theorem exchange_folder_archive (ho : fs.isOrderly = true)
    (hs : fs.stat location = .ok (.folder access es)) (hf : (Node.folder access es).Holds files)
    (ha : a.Holds files) (location' : String) :
    (∀ (closed : Bool) (before after : List Container),
        let folders : ClassPath := ⟨before ++ .folder location closed :: after⟩
        let archives : ClassPath :=
          ⟨before ++ .archive location' (if closed then none else some a) :: after⟩
        (∀ name : ClassName, Fits fs location name.path →
            (archives.load fs name).mapError Fault.unplaced
              = (folders.load fs name).mapError Fault.unplaced)
          ∧ ∀ roots, (∀ n, (folders.source fs).Reached roots n → Fits fs location n.path) →
            (archives.closure fs roots).mapError Fault.unplaced
              = (folders.closure fs roots).mapError Fault.unplaced)
      ∧ ∀ (name : ClassName) (content : ByteArray), (name.path, content) ∈ files →
        ¬ Fits fs location name.path →
          (archive location' (some a)).open fs name.path = .ok (.ok content)
            ∧ ((folder location false).isSealed fs name.path = true →
              (folder location false).LacksEntry fs name.path)
            ∧ ((folder location false).isSealed fs name.path = false →
              ∃ cause, (folder location false).open fs name.path = .error (.io cause)
                ∨ (folder location false).open fs name.path = .ok (.error (.file cause))) := by
  refine ⟨fun closed before after => ⟨fun name hp => ?_, fun roots hp => ?_⟩,
    fun name content hm hp => ?_⟩
  · exact mapError_loadFrom_exchange ho hs hf ha hp closed before after
  · exact ClassSource.mapError_closure Fault.keepsAbsence_unplaced fun n hn =>
      mapError_loadFrom_exchange ho hs hf ha (hp n hn) closed before after
  · obtain ⟨fileAccess, hat⟩ := (hf.file_iff name.path content).2 hm
    refine ⟨open_archive_of_holds hf ha hm, (lacksEntry_folder_iff_isSealed ho hs hat).2, fun hl => ?_⟩
    refine open_folder_of_refusal ho hs hat hl fun hr => hp ⟨?_, fun n access' content' hn hat' => ?_⟩
    · -- The names of a file lead down.
      have hdown (n : String) (hn : n ∈ pathNames name.path) : goesDown (.ofText n) = true :=
        (isEntryName_iff.1 (isEntryName_of_at? (FileSystem.isOrderly_of_stat ho hs) hat hn)).1
      simpa [isStraight] using hdown
    · obtain rfl := Except.ok.inj (hs.symm.trans hn)
      obtain ⟨rfl, -⟩ := Node.file.inj (Option.some.inj (hat.symm.trans hat'))
      exact ⟨hl, hr⟩

/-- Between two other containers, the archive takes the place of the folder. The class files are sound,
    one of them in a subfolder, and one class would stand below the file of another. -/
theorem exchange_folder_archive_libraryTree :
    archiveBetween.closure libraryTree [tool] = .ok [tool, frame]
      ∧ folderBetween.closure libraryTree [tool] = .ok [tool, frame]
      ∧ archiveBetween.load libraryTree frame = .ok Sample.frameFile
      ∧ (archiveBetween.load libraryTree below).mapError Fault.unplaced
        = .error (.classNotFound below) := by
  have hs : libraryTree.stat (libSlashes 1) = .ok library := Sample.stat_libSlashes (by decide)
  obtain ⟨hsame, -⟩ := exchange_folder_archive (by decide) hs Sample.holds_library
    Sample.holds_libraryArchive "lib.jar"
  obtain ⟨hname, hroots⟩ := hsame false [.folder "first" false] [.folder "last" false]
  have hclosure := hroots [tool] fun n hn => Sample.fits_library n (Sample.mem_of_reached hn)
  have hframe := hname frame (Sample.fits_library frame (by decide))
  have hbelow := hname below (Sample.fits_library below (by decide))
  refine ⟨eq_ok_of_mapError_eq hclosure Sample.closure_folderBetween, Sample.closure_folderBetween,
    eq_ok_of_mapError_eq hframe Sample.load_frame, hbelow.trans ?_⟩
  obtain ⟨m, hm⟩ := Sample.lacks_below
  obtain ⟨rfl, -⟩ := loadFrom_eq_classNotFound_iff.1 hm
  exact congrArg (Except.mapError Fault.unplaced) hm

/-- With too many separators the archive has the class and the folder lacks it. -/
theorem load_libraryArchive_ne_libraryTree :
    libraryTree.isOrderly = true ∧ libraryTree.stat (libSlashes 4092) = .ok library
      ∧ library.Holds libraryFiles ∧ libraryArchive.Holds libraryFiles
      ∧ isStraight tool.path = true
      ∧ (⟨[.folder (libSlashes 4092) false]⟩ : ClassPath).load libraryTree tool
        = .error (.classNotFound tool)
      ∧ (⟨[.archive "lib.jar" (some libraryArchive)]⟩ : ClassPath).load libraryTree tool
        = .ok Sample.toolFile := by
  refine ⟨by decide, Sample.stat_libSlashes (by decide), Sample.holds_library,
    Sample.holds_libraryArchive, by decide, ?_, ?_⟩
  · exact loadFrom_of_forall_lacksEntry (by simpa using Sample.lacksEntry_libSlashes (by decide))
  · have hpath : tool.path = "Tool.class" := by decide
    have hmem : (tool.path, Sample.toolContent) ∈ libraryFiles := by
      rw [hpath]
      exact List.mem_cons_self ..
    have hopen : (archive "lib.jar" (some libraryArchive)).open libraryTree tool.path
        = .ok (.ok Sample.toolContent) :=
      open_archive_of_holds Sample.holds_library Sample.holds_libraryArchive hmem
    rw [load, loadFrom, hopen]
    exact Sample.decodeFile_tool

end ClassPath

end PrimaryDex
