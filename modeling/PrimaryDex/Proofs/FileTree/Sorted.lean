import PrimaryDex.Proofs.FileTree.Orderly

namespace PrimaryDex

/-!
# The order of the files of a tree

In a tree the entries of each folder are sorted, and those of a subfolder stand together. In terms of whole
paths, this is one order, which compares name by name.

* `nameBytes`, `NamesLT` — names by their bytes, and rows of names like words in a dictionary whose
  letters are names;
* `Node.files_folder_of_perm` — the order of the entries in the file system makes no difference;
* `Node.pairwise_files` — the files of an orderly tree stand in that order, each once.
-/

/-- The bytes of a name. -/
def nameBytes (name : FileName) : List UInt8 := name.bytes.data.toList

/-- The first name in which two rows differ has the lesser bytes in the first row, or the first row ends
    where the second goes on. -/
def NamesLT (xs ys : List FileName) : Prop := xs.map nameBytes < ys.map nameBytes

/-- A name is known by its bytes. -/
theorem nameBytes_inj {a b : FileName} (h : nameBytes a = nameBytes b) : a = b :=
  congrArg FileName.mk (ByteArray.ext (Array.toList_inj.1 h))

namespace NamesLT

/-- No row comes before itself. -/
theorem irrefl (xs : List FileName) : ¬ NamesLT xs xs := List.lt_irrefl _

/-- Of two rows, at most one comes before the other. -/
theorem asymm {xs ys : List FileName} (h : NamesLT xs ys) : ¬ NamesLT ys xs := List.lt_asymm h

/-- Rows that start with the same name are compared behind it. -/
theorem cons {xs ys : List FileName} (name : FileName) (h : NamesLT xs ys) :
    NamesLT (name :: xs) (name :: ys) :=
  List.cons_lt_cons_iff.2 (.inr ⟨rfl, h⟩)

/-- Rows that start with different names are compared by these. -/
theorem of_head {a b : FileName} (h : nameBytes a < nameBytes b) (xs ys : List FileName) :
    NamesLT (a :: xs) (b :: ys) :=
  List.cons_lt_cons_iff.2 (.inl h)

end NamesLT

namespace FileName

/-- The order of names passes from one to the next. -/
theorem le_trans (a b c : FileName) (hab : le a b = true) (hbc : le b c = true) : le a c = true :=
  decide_eq_true (List.le_trans (of_decide_eq_true hab) (of_decide_eq_true hbc))

/-- Any two names are in order one way or the other. -/
theorem le_total (a b : FileName) : (le a b || le b a) = true := by
  rw [Bool.or_eq_true]
  exact (List.le_total (nameBytes a) (nameBytes b)).imp decide_eq_true decide_eq_true

/-- Of two different names, the one that is not behind the other comes before it. -/
theorem lt_of_le {a b : FileName} (h : le a b = true) (hne : a ≠ b) : nameBytes a < nameBytes b :=
  Std.lt_of_le_of_ne (of_decide_eq_true h) fun he => hne (nameBytes_inj he)

end FileName

namespace Node

/-- The entries of a folder with different names are sorted strictly. -/
theorem pairwise_sorted_entries {es : List (FileName × List (List FileName))}
    (h : (es.map (·.1)).Nodup) :
    (es.mergeSort fun a b => FileName.le a.1 b.1).Pairwise
      fun a b => nameBytes a.1 < nameBytes b.1 := by
  have hsorted : (es.mergeSort fun a b => FileName.le a.1 b.1).Pairwise
      fun a b => FileName.le a.1 b.1 = true :=
    List.pairwise_mergeSort (fun a b c => FileName.le_trans a.1 b.1 c.1)
      (fun a b => FileName.le_total a.1 b.1) es
  have hperm : (es.mergeSort fun a b => FileName.le a.1 b.1).Perm es := List.mergeSort_perm _ _
  have hne : (es.mergeSort fun a b => FileName.le a.1 b.1).Pairwise fun a b => a.1 ≠ b.1 :=
    List.pairwise_map.1 ((hperm.map Prod.fst).nodup_iff.2 h)
  exact hsorted.imp₂ (fun _ _ => FileName.lt_of_le) hne

/-- In whatever order a folder has its entries, their files are listed in the order of the names. -/
theorem files_folder_of_perm {access : FolderAccess} {es : List (FileName × Node)}
    (sorted : List (FileName × List (List FileName))) (ha : access.toList = none)
    (hp : (filesOfEntries access es).Perm sorted)
    (hs : sorted.Pairwise fun a b => nameBytes a.1 < nameBytes b.1) :
    (folder access es).files = sorted.flatMap fun e => e.2.map (e.1 :: ·) := by
  have hnames : ((filesOfEntries access es).map (·.1)).Nodup := by
    rw [(hp.map Prod.fst).nodup_iff, List.nodup_iff_pairwise_ne, List.pairwise_map]
    refine hs.imp ?_
    rintro a b hlt he
    exact List.lt_irrefl _ (he ▸ hlt)
  -- Two rows with the same entries that are both sorted strictly are the same.
  have hsame : (filesOfEntries access es).mergeSort (fun a b => FileName.le a.1 b.1) = sorted :=
    ((List.mergeSort_perm _ _).trans hp).eq_of_pairwise
      (fun _ _ _ _ hlt hgt => absurd hgt (List.lt_asymm hlt)) (pairwise_sorted_entries hnames) hs
  rw [files, ha, hsame]
  rfl

/-! ### The files of a tree -/

mutual

/-- **The files of a tree are in order.** A folder's entries are sorted, and what stands below one entry
    is in order behind its name. -/
theorem pairwise_files : (n : Node) → n.isOrderly = true → n.files.Pairwise NamesLT
  | file _ _, _ => List.pairwise_singleton _ _
  | link _, _ => .nil
  | device _, _ => .nil
  | folder access es, h => by
    rw [isOrderly, Bool.and_eq_true, Bool.and_eq_true, decide_eq_true_eq] at h
    obtain ⟨⟨hnames, -⟩, hes⟩ := h
    have hnames' : ((filesOfEntries access es).map (·.1)).Nodup := by
      simpa [filesOfEntries_eq, Function.comp_def] using hnames
    rw [files]
    split
    · exact .nil
    rw [List.pairwise_flatMap]
    constructor
    · rintro ⟨name, below⟩ he
      -- Below one entry.
      rw [List.pairwise_map]
      have hbelow := pairwise_filesOfEntries access es hes _ (List.mem_mergeSort.1 he)
      exact hbelow.imp fun hlt => hlt.cons name
    · refine (pairwise_sorted_entries hnames').imp ?_
      rintro ⟨a, below⟩ ⟨b, below'⟩ hlt xs hxs ys hys
      -- Below two entries, of which the first has the lesser name.
      obtain ⟨xs, -, rfl⟩ := List.mem_map.1 hxs
      obtain ⟨ys, -, rfl⟩ := List.mem_map.1 hys
      exact .of_head hlt xs ys

/-- Below each entry, the files are in order. -/
theorem pairwise_filesOfEntries (access : FolderAccess) : (es : List (FileName × Node)) →
    areOrderly es = true → ∀ e ∈ filesOfEntries access es, e.2.Pairwise NamesLT
  | [], _ => by simp [filesOfEntries]
  | (name, n) :: es, h => by
    rw [areOrderly, Bool.and_eq_true] at h
    intro e he
    rcases List.mem_cons.1 he with rfl | he
    · -- A folder that is not searched counts as having no files.
      split
      · exact .nil
      · exact pairwise_files n h.1
    · exact pairwise_filesOfEntries access es h.2 e he

end

end Node

end PrimaryDex
