import PrimaryDex.ClassFile.References
import PrimaryDex.Container

namespace PrimaryDex

/-!
# Class paths

A class path is a list of containers, of which the first that has a class file counts.

* `ClassPath.ofLocations` — opens all locations; the first bad one in order is reported;
* `ClassPath.load` — finds and decodes a class. Only a container without such an entry moves the
  search on, whatever else is wrong ends it;
* `ClassPath.mentioned` — all classes that anything on the class path can mention;
  `mentions_subset_mentioned` says so, and shows that they are finitely many.
-/

/-- The containers to be searched, in order. -/
structure ClassPath where
  containers : List Container

namespace ClassPath

/-- Opens the containers at some locations. -/
def ofLocations (fs : FileSystem) (locations : List String) : Except Fault ClassPath :=
  ClassPath.mk <$> locations.mapM (Container.ofLocation fs)

/-- The class path with all containers closed. -/
def close (cp : ClassPath) : ClassPath := ⟨cp.containers.map Container.close⟩

/-- Decodes what was read for a class. -/
def decodeFile (name : ClassName) (content : ByteArray) : Except Fault ClassFile :=
  match ClassFile.decode name content.data.toList with
  | .ok c => .ok c
  | .error cause => .error (.badFormat name cause)

/-- A class comes of its bytes under the name that it was looked up by. -/
theorem decodeFile_eq_ok_iff {name : ClassName} {content : ByteArray} {c : ClassFile} :
    decodeFile name content = .ok c
      ↔ ClassHeader.decode content.data.toList = .ok c.toClassHeader ∧ c.name = name := by
  cases hd : ClassHeader.decode content.data.toList with
  | error cause => simp [decodeFile, ClassFile.decode, hd, Functor.map, Except.map]
  | ok header =>
    simp only [decodeFile, ClassFile.decode, hd, Functor.map, Except.map, Except.ok.injEq]
    constructor
    · rintro rfl
      exact ⟨rfl, rfl⟩
    · rintro ⟨rfl, rfl⟩
      rfl

/-- A fault of the bytes is one of the class. -/
theorem decodeFile_eq_badFormat {name : ClassName} {content : ByteArray} {cause : FormatError}
    (h : ClassHeader.decode content.data.toList = .error cause) :
    decodeFile name content = .error (.badFormat name cause) := by
  simp only [decodeFile, ClassFile.decode, h, Functor.map, Except.map]

/-- Loads a class from the first of some containers that has its file. -/
def loadFrom (fs : FileSystem) (name : ClassName) : List Container → Except Fault ClassFile
  | [] => .error (.classNotFound name)
  | c :: cs =>
    match c.open fs name.path with
    | .error (.entryNotFound _ _) => loadFrom fs name cs
    | .error fault => .error fault
    | .ok (.error cause) => .error (.unreadable name c.location cause)
    | .ok (.ok content) => decodeFile name content

/-- Loads a class. -/
def load (fs : FileSystem) (cp : ClassPath) (name : ClassName) : Except Fault ClassFile :=
  loadFrom fs name cp.containers

end ClassPath

/-- The classes that a class file refers to, where a fault in it is one of the class. -/
def ClassFile.referenced (c : ClassFile) : Except Fault (List ClassName) :=
  match c.references with
  | .ok ns => .ok ns
  | .error cause => .error (.badFormat c.name cause)

/-- The classes that are referred to are those of the class file. -/
theorem ClassFile.references_of_referenced {c : ClassFile} {ns : List ClassName}
    (h : c.referenced = .ok ns) : c.references = .ok ns := by
  rw [referenced] at h
  split at h
  · rename_i ms hms
    rw [hms, Except.ok.inj h]
  · simp at h

namespace ClassPath

/-! ### What can be mentioned -/

/-- All that can be read from the file tree and the containers. -/
def contents (fs : FileSystem) (cp : ClassPath) : List ByteArray :=
  fs.root.contents ++ cp.containers.flatMap Container.contents

/-- The classes that some bytes mention as a class file. -/
def mentionsOf (content : ByteArray) : List ClassName :=
  match ClassHeader.decode content.data.toList with
  | .ok h => h.mentions
  | .error _ => []

/-- The classes that anything on the class path mentions. -/
def mentioned (fs : FileSystem) (cp : ClassPath) : List ClassName :=
  (cp.contents fs).flatMap mentionsOf

/-- What a decoded class mentions is what its bytes mention. -/
theorem mentionsOf_decodeFile {name : ClassName} {content : ByteArray} {c : ClassFile}
    (h : decodeFile name content = .ok c) : c.mentions = mentionsOf content := by
  rw [mentionsOf, (decodeFile_eq_ok_iff.1 h).1]

/-- A loaded class was decoded from something that can be read. -/
theorem exists_content_of_loadFrom {fs : FileSystem} {name : ClassName} {cs : List Container}
    {c : ClassFile} (h : loadFrom fs name cs = .ok c) :
    ∃ content ∈ fs.root.contents ++ cs.flatMap Container.contents,
      decodeFile name content = .ok c := by
  -- The containers are searched in order, up to the one that gives the class out.
  induction cs with
  | nil => simp [loadFrom] at h
  | cons k ks ih =>
    simp only [loadFrom] at h
    split at h
    · obtain ⟨content, hm, hd⟩ := ih h
      refine ⟨content, ?_, hd⟩
      simp only [List.mem_append, List.flatMap_cons] at hm ⊢
      exact hm.imp_right .inr
    · simp at h
    · simp at h
    · rename_i content ho
      refine ⟨content, ?_, h⟩
      have := Container.mem_contents_of_open ho
      simp only [List.mem_append, List.flatMap_cons] at this ⊢
      exact this.imp_right .inl

/-- What a loaded class mentions is among what the class path can mention, under whatever name it
    was loaded. -/
theorem mentions_subset_mentioned {fs : FileSystem} {cp : ClassPath} {name : ClassName}
    {c : ClassFile} (h : cp.load fs name = .ok c) : c.mentions ⊆ cp.mentioned fs := by
  obtain ⟨content, hm, hd⟩ := exists_content_of_loadFrom h
  intro n hn
  exact List.mem_flatMap.2 ⟨content, hm, mentionsOf_decodeFile hd ▸ hn⟩

end ClassPath

end PrimaryDex
