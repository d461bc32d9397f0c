import PrimaryDex.Proofs.Roots.Spelling
import PrimaryDex.Report
import PrimaryDex.RootLines

namespace PrimaryDex

open Text

/-!
# Lists of classes, read as roots

A closure is written as one path on each line. Roots are read from lines too, but a line may spell a
class in other ways, or name none.

* `rootLines_append` — a line feed between two texts separates what they name;
* `ClassName.IsListable` — the names that a line can hold: settled, without a line feed, and no comment;
* `ClassName.isSettled_of_mem_rootLines` — whatever lines name is settled and has no line feed;
* `rootLines_classList_eq_filter` — of such names on lines of their own, only those that look like
  comments are passed over;
* `rootLines_classList` — hence a list of classes is read back, in order, exactly if a line can hold each
  of its names.
-/

/-! ### Line by line -/

/-- A line feed between two texts separates what they name. -/
theorem rootLines_append (a b : String) :
    rootLines (a ++ "\n" ++ b) = rootLines a ++ rootLines b := by
  have h : (a ++ "\n" ++ b).toList = a.toList ++ '\n' :: b.toList := by simp
  rw [rootLines, h, pieces_append, List.filterMap_append]
  rfl

/-- Each class has a line to itself. -/
theorem classList_cons (n : ClassName) (ns : List ClassName) :
    classList (n :: ns) = n.path ++ "\n" ++ classList ns := by
  simp [classList]

/-- A text without a line feed is a single line. -/
theorem rootLines_of_not_mem {t : String} (h : '\n' ∉ t.toList) :
    rootLines t = (rootLine? t.toList).toList := by
  rw [rootLines, pieces_of_not_mem h]
  cases hl : rootLine? t.toList <;> simp [hl]

namespace ClassName

variable {n : ClassName}

/-! ### Names on a line -/

/-- A name whose path a line can hold: it has no line feed and no backslash, does not start with a blank
    or as a comment does, and has dots only where there is a slash. -/
structure IsListable (n : ClassName) : Prop extends n.IsSettled where
  no_newline : '\n' ∉ n.internal.toList
  no_comment : n.internal.toList.head? ≠ some '#'

/-- The conditions one by one, so that they can be tried out. -/
theorem isListable_iff : n.IsListable ↔ '\\' ∉ n.internal.toList
    ∧ n.internal.toList.head?.any isBlank = false
    ∧ ('.' ∈ n.internal.toList → '/' ∈ n.internal.toList)
    ∧ '\n' ∉ n.internal.toList ∧ n.internal.toList.head? ≠ some '#' := by
  rw [Option.any_eq_false]
  constructor
  · rintro ⟨⟨hback, hblank, hdot⟩, hline, hcomment⟩
    exact ⟨hback, hblank, hdot, hline, hcomment⟩
  · rintro ⟨hback, hblank, hdot, hline, hcomment⟩
    exact ⟨⟨hback, hblank, hdot⟩, hline, hcomment⟩

instance : DecidablePred IsListable := fun _ => decidable_of_iff' _ isListable_iff

/-- The path of a settled name is read as that name, unless it starts as a comment does. -/
theorem IsSettled.rootLine?_path (h : n.IsSettled) : rootLine? n.path.toList
    = if n.internal.toList.head? = some '#' then none else some n := by
  -- A path never is blank, and where the name is empty it starts with the dot of the extension.
  have hblank : n.path.toList ≠ [] := by simp [toList_path, extension]
  have hhead : n.path.toList.head? = some '#' ↔ n.internal.toList.head? = some '#' := by
    rw [toList_path]
    cases n.internal.toList <;> simp [extension]
  simp only [rootLine?, h.trim_path, hblank, hhead, false_or, String.ofList_toList,
    ofSpelling_path_iff.2 h]

/-- The path of a settled name alone is a line that names it, or a comment. -/
theorem IsSettled.rootLines_path (h : n.IsSettled) (hn : '\n' ∉ n.internal.toList) :
    rootLines n.path = if n.internal.toList.head? = some '#' then [] else [n] := by
  have hp : '\n' ∉ n.path.toList := by
    rw [toList_path, List.mem_append, not_or]
    exact ⟨hn, by decide⟩
  rw [rootLines_of_not_mem hp, h.rootLine?_path]
  split <;> rfl

/-! ### What lines name -/

/-- Reading brings in no characters but slashes. -/
theorem mem_or_eq_of_mem_ofSpelling {s : String} {c : Char}
    (h : c ∈ (ofSpelling s).internal.toList) : c ∈ s.toList ∨ c = '/' := by
  have hslashed {c : Char} (hc : c ∈ trimSuffix extension (slashed (trim s.toList))) :
      c ∈ s.toList ∨ c = '/' := by
    have hc := (isPrefix_trimSuffix _ _).subset hc
    rw [slashed_eq, mem_rewritten_iff] at hc
    exact hc.imp (fun hc => trim_subset _ hc.1) fun hc => hc.1
  rw [ofSpelling_eq, ofTrimmed, String.toList_ofList] at h
  split at h
  · exact hslashed h
  · rw [undotted_eq, mem_rewritten_iff] at h
    rcases h with ⟨h, -⟩ | ⟨rfl, -⟩
    · exact hslashed h
    · exact .inr rfl

/-- What is named by a line is settled and has no line feed. -/
theorem isSettled_of_mem_rootLines {t : String} (h : n ∈ rootLines t) :
    n.IsSettled ∧ '\n' ∉ n.internal.toList := by
  rw [rootLines, List.mem_filterMap] at h
  obtain ⟨line, hline, hn⟩ := h
  simp only [rootLine?] at hn
  split at hn
  · simp at hn
  · rw [Option.some.injEq] at hn
    subst hn
    refine ⟨isSettled_ofSpelling _, fun hc => ?_⟩
    -- A line feed in the name would be one in the line.
    rcases mem_or_eq_of_mem_ofSpelling hc with hc | hc
    · rw [String.toList_ofList] at hc
      exact not_mem_of_mem_pieces hline (trim_subset _ hc)
    · exact absurd hc (by decide)

end ClassName

/-! ### Reading a list back -/

/-- Of settled names without line feeds, a list of their paths names all but those that start as a
    comment does. -/
theorem rootLines_classList_eq_filter {closure : List ClassName}
    (h : ∀ n ∈ closure, n.IsSettled ∧ '\n' ∉ n.internal.toList) :
    rootLines (classList closure)
      = closure.filter fun n => n.internal.toList.head? ≠ some '#' := by
  induction closure with
  | nil => rfl
  | cons n ns ih =>
    obtain ⟨hn, hns⟩ := List.forall_mem_cons.1 h
    rw [classList_cons, rootLines_append, hn.1.rootLines_path hn.2, ih hns]
    by_cases hc : n.internal.toList.head? = some '#' <;> simp [hc]

/-- **A list of classes is a list of roots.** It is read back as the same classes in the same order
    exactly if a line can hold each of their names. And whatever texts are joined by a line feed, what
    they name is named in turn. -/
theorem rootLines_classList :
    (∀ closure, rootLines (classList closure) = closure ↔ ∀ n ∈ closure, n.IsListable)
      ∧ ∀ a b, rootLines (a ++ "\n" ++ b) = rootLines a ++ rootLines b := by
  refine ⟨fun closure => ⟨fun h => ?_, fun h => ?_⟩, rootLines_append⟩
  · -- What is read back was read, and if nothing is lost then nothing was taken for a comment.
    have hread : ∀ n ∈ closure, n.IsSettled ∧ '\n' ∉ n.internal.toList := fun n hn =>
      ClassName.isSettled_of_mem_rootLines (h.symm ▸ hn)
    rw [rootLines_classList_eq_filter hread, List.filter_eq_self] at h
    intro n hn
    obtain ⟨hset, hline⟩ := hread n hn
    exact { hset with no_newline := hline, no_comment := by simpa using h n hn }
  · rw [rootLines_classList_eq_filter fun n hn => ⟨(h n hn).toIsSettled, (h n hn).no_newline⟩,
      List.filter_eq_self]
    intro n hn
    simpa using (h n hn).no_comment

/-- A carriage return within a name is read back, and so is a dot where there is a slash. Without one,
    the dot is read as a slash, so that another class is named. -/
theorem rootLines_classList_names :
    (∀ n ∈ [⟨"Main"⟩, ⟨"a/b.C"⟩, ⟨"D\rE"⟩, ⟨""⟩], ClassName.IsListable n)
      ∧ rootLines (classList [⟨"Main"⟩, ⟨"a/b.C"⟩, ⟨"D\rE"⟩, ⟨""⟩])
        = [⟨"Main"⟩, ⟨"a/b.C"⟩, ⟨"D\rE"⟩, ⟨""⟩]
      ∧ ¬ ClassName.IsListable ⟨"b.C"⟩
      ∧ rootLines (classList [⟨"Main"⟩, ⟨"b.C"⟩]) ≠ [⟨"Main"⟩, ⟨"b.C"⟩] := by
  have hlistable : ∀ n ∈ [⟨"Main"⟩, ⟨"a/b.C"⟩, ⟨"D\rE"⟩, ⟨""⟩], ClassName.IsListable n := by decide
  have hdotted : ¬ ClassName.IsListable ⟨"b.C"⟩ := by decide
  refine ⟨hlistable, (rootLines_classList.1 _).2 hlistable, hdotted, fun h => hdotted ?_⟩
  exact (rootLines_classList.1 _).1 h _ (by simp)

end PrimaryDex
