import PrimaryDex.ClassPath.Basic

namespace PrimaryDex

/-!
# Sources of classes

`ClassSource` is what a closure is computed over: a way to find classes, all of which together mention
finitely many others. `ClassPath.source` is a class path over a file tree that does not change.
-/

/-- A way to find classes. -/
structure ClassSource where
  find : ClassName → Except Fault ClassFile
  /-- The classes that can be found mention finitely many classes, however many names find one. -/
  finite : ∃ names : List ClassName, ∀ {n : ClassName} {c : ClassFile},
    find n = .ok c → c.mentions ⊆ names

namespace ClassSource

/-- Names that hold every class that can be mentioned. -/
noncomputable def names (source : ClassSource) : List ClassName := source.finite.choose

/-- What a class mentions that is found is among the names of the source. -/
theorem mentions_subset_names {source : ClassSource} {n : ClassName} {c : ClassFile}
    (h : source.find n = .ok c) : c.mentions ⊆ source.names :=
  source.finite.choose_spec h

/-- The superclass and the interfaces of a class that is found are among the names of the source. -/
theorem ancestors_subset_names {source : ClassSource} {n : ClassName} {c : ClassFile}
    (h : source.find n = .ok c) : c.ancestors ⊆ source.names := fun _ hm =>
  mentions_subset_names h (ClassHeader.ancestors_subset_mentions _ hm)

theorem referenced_subset_names {source : ClassSource} {n : ClassName} {c : ClassFile}
    {ns : List ClassName} (h : source.find n = .ok c) (hr : c.referenced = .ok ns) :
    ns ⊆ source.names := by
  have hsub := ClassHeader.references_subset_mentions (ClassFile.references_of_referenced hr)
  exact fun m hm => mentions_subset_names h (hsub hm)

end ClassSource

/-- The classes of a class path over the files of `fs`. -/
def ClassPath.source (fs : FileSystem) (cp : ClassPath) : ClassSource where
  find := cp.load fs
  finite := ⟨cp.mentioned fs, mentions_subset_mentioned⟩

end PrimaryDex
