import Mathlib.Data.List.Basic
import PrimaryDex.ClassName

namespace PrimaryDex

open Text

/-!
# Spellings of class names

Users spell a class in several ways, all of which are read as one name.

* `Text.trim_append` — blanks around a text are trimmed, and `Text.isBlank_of_head?_trim` says that what
  is left does not start with one;
* `ClassName.IsSettled` — the names whose path is read as themselves (`ofSpelling_path_iff`). No other
  names are ever read (`isSettled_ofSpelling`);
* `ClassName.IsPlain` — the names without dots, backslashes and blanks, and `ClassName.spellings`, the
  ways to write one;
* `ClassName.ofSpelling_settles` — reading the path of a name that was read changes nothing, and all
  spellings of a plain name are read as that name.
-/

namespace Text

/-! ### Trimming -/

/-- Blanks are dropped up to a text that does not start with one. -/
theorem dropWhile_blanks {left t : List Char} (hl : ∀ c ∈ left, isBlank c = true)
    (ht : ∀ c, t.head? = some c → isBlank c = false) : (left ++ t).dropWhile isBlank = t := by
  rw [List.dropWhile_append_of_pos hl]
  cases t with
  | nil => rfl
  | cons c t => rw [List.dropWhile_cons_of_neg (by simp [ht c rfl])]

/-- Blanks around a text are trimmed, if it does not start or end with one itself. -/
theorem trim_append {left t right : List Char}
    (ht : ∀ c, t.head? = some c ∨ t.getLast? = some c → isBlank c = false)
    (hl : ∀ c ∈ left, isBlank c = true) (hr : ∀ c ∈ right, isBlank c = true) :
    trim (left ++ t ++ right) = t := by
  by_cases hne : t = []
  · -- Blanks alone are all trimmed at the start.
    have hall : ∀ c ∈ left ++ right, isBlank c = true := fun c hc =>
      (List.mem_append.1 hc).elim (hl c) (hr c)
    have hstart := dropWhile_blanks (t := []) hall (by simp)
    rw [List.append_nil] at hstart
    rw [hne, List.append_nil, trim, trimStart, hstart]
    rfl
  · have hstart : trimStart (left ++ t ++ right) = t ++ right := by
      rw [trimStart, List.append_assoc]
      refine dropWhile_blanks hl fun c hc => ht c (.inl ?_)
      rwa [List.head?_append_of_ne_nil _ hne] at hc
    -- The end is trimmed as the start of the reversed text.
    have hend : (right.reverse ++ t.reverse).dropWhile isBlank = t.reverse := by
      refine dropWhile_blanks (fun c hc => hr c (List.mem_reverse.1 hc)) fun c hc => ht c (.inr ?_)
      rwa [List.head?_reverse] at hc
    rw [trim, hstart, trimEnd, List.reverse_append, hend, List.reverse_reverse]

/-- What trimming the end leaves is a first part of what trimming the start leaves. -/
theorem trim_prefix_trimStart (t : List Char) : trim t <+: trimStart t := by
  rw [trim, trimEnd, ← List.reverse_suffix, List.reverse_reverse]
  exact List.dropWhile_suffix _

/-- Trimming leaves no other characters. -/
theorem trim_subset (t : List Char) : trim t ⊆ t :=
  List.Subset.trans (trim_prefix_trimStart t).subset (List.dropWhile_subset _)

/-- A trimmed text does not start with a blank. -/
theorem isBlank_of_head?_trim {t : List Char} {c : Char} (h : (trim t).head? = some c) :
    isBlank c = false := by
  have hc : (trimStart t).head? = some c := by
    obtain ⟨rest, hrest⟩ := trim_prefix_trimStart t
    rw [← hrest, List.head?_append, h, Option.some_or]
  have hstart := List.head?_dropWhile_not isBlank t
  rw [← trimStart, hc] at hstart
  simpa using hstart

/-! ### Endings -/

/-- A text without the ending is kept whole. -/
theorem trimSuffix_of_not_suffix {e t : List Char} (h : ¬ e <:+ t) : trimSuffix e t = t := by
  have hnone : dropSuffix? e t = none := Option.eq_none_iff_forall_ne_some.2 fun r hr =>
    h ⟨r, (dropSuffix?_eq_some_iff.1 hr).symm⟩
  rw [trimSuffix, hnone, Option.getD_none]

/-- An ending is there or it is not. -/
theorem eq_trimSuffix_append_or (e t : List Char) :
    t = trimSuffix e t ++ e ∨ t = trimSuffix e t := by
  by_cases h : e <:+ t
  · obtain ⟨r, rfl⟩ := h
    exact .inl (by rw [trimSuffix_append])
  · exact .inr (trimSuffix_of_not_suffix h).symm

/-- Without its ending, a text is a first part of itself. -/
theorem isPrefix_trimSuffix (e t : List Char) : trimSuffix e t <+: t := by
  by_cases h : e <:+ t
  · obtain ⟨r, rfl⟩ := h
    rw [trimSuffix_append]
    exact List.prefix_append r e
  · exact ⟨[], by rw [trimSuffix_of_not_suffix h, List.append_nil]⟩

/-! ### One character for another -/

/-- The text with `b` in every place where it has `a`. -/
def rewritten (a b : Char) (t : List Char) : List Char :=
  t.map fun c => if c = a then b else c

section

variable {a b : Char} {t : List Char}

@[simp] theorem length_rewritten : (rewritten a b t).length = t.length := List.length_map ..

/-- Texts are rewritten part by part. -/
@[simp] theorem rewritten_append (s t : List Char) :
    rewritten a b (s ++ t) = rewritten a b s ++ rewritten a b t := List.map_append ..

/-- A rewritten text has the characters that it had except the old one, and the new one if it had
    that. -/
theorem mem_rewritten_iff {x : Char} :
    x ∈ rewritten a b t ↔ (x ∈ t ∧ x ≠ a) ∨ (x = b ∧ a ∈ t) := by
  simp only [rewritten, List.mem_map]
  constructor
  · rintro ⟨c, hc, rfl⟩
    split
    · rename_i he
      exact .inr ⟨rfl, he ▸ hc⟩
    · exact .inl ⟨hc, ‹_›⟩
  · rintro (⟨hx, hne⟩ | ⟨rfl, ha⟩)
    · exact ⟨x, hx, if_neg hne⟩
    · exact ⟨a, ha, if_pos rfl⟩

/-- A text without the old character stays as it is. -/
theorem rewritten_of_not_mem (h : a ∉ t) : rewritten a b t = t := by
  refine (List.map_congr_left fun c hc => if_neg ?_).trans (List.map_id t)
  rintro rfl
  exact h hc

/-- Rewriting is undone if the text did not have the new character. -/
theorem rewritten_rewritten (h : b ∉ t) : rewritten b a (rewritten a b t) = t := by
  rw [rewritten, rewritten, List.map_map]
  refine (List.map_congr_left fun c hc => ?_).trans (List.map_id t)
  show (if (if c = a then b else c) = b then a else if c = a then b else c) = c
  by_cases hca : c = a
  · simp [hca]
  · have hcb : c ≠ b := fun he => h (he ▸ hc)
    simp [hca, hcb]

end

/-- A text ends in a separator and a piece exactly if it has several pieces, of which this is the
    last. -/
theorem separator_cons_suffix_iff {sep : Char} {t p : List Char} (hp : sep ∉ p) :
    sep :: p <:+ t ↔ 1 < (pieces sep t).length ∧ (pieces sep t).getLast? = some p := by
  constructor
  · rintro ⟨s, rfl⟩
    rw [pieces_append, pieces_of_not_mem hp]
    have hpos := List.length_pos_of_ne_nil (pieces_ne_nil sep s)
    simp [hpos]
  · rintro ⟨hlen, hlast⟩
    obtain ⟨ps, hps⟩ := List.getLast?_eq_some_iff.1 hlast
    have hne : ps ≠ [] := by
      rintro rfl
      simp [hps] at hlen
    have hcut : pieces sep ([sep].intercalate ps ++ sep :: p) = pieces sep t := by
      rw [pieces_append, pieces_of_not_mem hp, pieces_intercalate hne, hps]
      intro q hq
      exact not_mem_of_mem_pieces (hps ▸ List.mem_append_left _ hq)
    -- Texts with the same pieces are the same.
    refine ⟨[sep].intercalate ps, ?_⟩
    rw [← intercalate_pieces sep t, ← hcut, intercalate_pieces]

end Text

namespace ClassName

variable {n : ClassName} {t left right : List Char}

/-! ### Reading -/

/-- The name that a text is read as which has no blanks around it. -/
def ofTrimmed (t : List Char) : ClassName :=
  let stem := trimSuffix extension (slashed t)
  ⟨String.ofList (if '/' ∈ slashed t then stem else undotted stem)⟩

/-- What is read is the trimmed text. -/
theorem ofSpelling_eq (s : String) : ofSpelling s = ofTrimmed (trim s.toList) := by
  simp only [ofSpelling, ofTrimmed, ofPath, String.toList_ofList]
  split <;> rfl

theorem slashed_eq (t : List Char) : slashed t = rewritten '\\' '/' t := rfl

theorem undotted_eq (t : List Char) : undotted t = rewritten '.' '/' t := rfl

/-- A text with slashes loses its extension alone. -/
theorem ofTrimmed_of_mem (hb : '\\' ∉ t) (hs : '/' ∈ t) :
    ofTrimmed t = ⟨String.ofList (trimSuffix extension t)⟩ := by
  rw [ofTrimmed, slashed_eq, rewritten_of_not_mem hb, if_pos hs]

/-- One without slashes has its dots for slashes, except that of the extension. -/
theorem ofTrimmed_of_not_mem (hb : '\\' ∉ t) (hs : '/' ∉ t) :
    ofTrimmed t = ⟨String.ofList (undotted (trimSuffix extension t))⟩ := by
  rw [ofTrimmed, slashed_eq, rewritten_of_not_mem hb, if_neg hs]

/-- A path is read as it stands if each of its dots is one of a path. -/
theorem ofTrimmed_path (hb : '\\' ∉ n.internal.toList)
    (hd : '.' ∈ n.internal.toList → '/' ∈ n.internal.toList) : ofTrimmed n.path.toList = n := by
  have hb' : '\\' ∉ n.path.toList := by
    rw [toList_path, List.mem_append, not_or]
    exact ⟨hb, by decide⟩
  have hs : '/' ∈ n.path.toList ↔ '/' ∈ n.internal.toList := by
    rw [toList_path, List.mem_append]
    exact or_iff_left (by decide)
  by_cases h : '/' ∈ n.internal.toList
  · rw [ofTrimmed_of_mem hb' (hs.2 h), toList_path, trimSuffix_append, String.ofList_toList]
  · have hdot : '.' ∉ n.internal.toList := fun hdot => h (hd hdot)
    rw [ofTrimmed_of_not_mem hb' (mt hs.1 h), toList_path, trimSuffix_append, undotted_eq,
      rewritten_of_not_mem hdot, String.ofList_toList]

/-! ### Reading again -/

/-- A name as spellings are read: its path has no backslash, does not start with a blank, and has dots
    beside the one of the extension only where there is a slash. -/
structure IsSettled (n : ClassName) : Prop where
  no_backslash : '\\' ∉ n.internal.toList
  no_blank : ∀ c, n.internal.toList.head? = some c → isBlank c = false
  slash_of_dot : '.' ∈ n.internal.toList → '/' ∈ n.internal.toList

/-- Whatever is read is settled. -/
theorem isSettled_ofSpelling (s : String) : (ofSpelling s).IsSettled := by
  have hblank : ∀ c, (slashed (trim s.toList)).head? = some c → isBlank c = false := by
    intro c hc
    rw [slashed, List.head?_map, Option.map_eq_some_iff] at hc
    obtain ⟨d, hd, rfl⟩ := hc
    split
    · rfl
    · exact isBlank_of_head?_trim hd
  have hback : '\\' ∉ slashed (trim s.toList) := by simp [slashed_eq, mem_rewritten_iff]
  rw [ofSpelling_eq, ofTrimmed]
  generalize slashed (trim s.toList) = t at hblank hback
  have hstem := eq_trimSuffix_append_or extension t
  -- The stem starts as the text does, and has its slashes.
  have hsub := isPrefix_trimSuffix extension t
  generalize trimSuffix extension t = stem at hstem hsub
  have hback' : '\\' ∉ stem := fun hm => hback (hsub.subset hm)
  have hblank' : ∀ c, stem.head? = some c → isBlank c = false := by
    intro c hc
    obtain ⟨rest, rfl⟩ := hsub
    exact hblank c (by rw [List.head?_append, hc, Option.some_or])
  -- With a slash the dots are kept, without one they all become slashes.
  by_cases hs : '/' ∈ t
  · have hs' : '/' ∈ stem := by
      rcases hstem with h | h
      · rw [h, List.mem_append] at hs
        exact hs.resolve_right (by decide)
      · rwa [← h]
    simp only [if_pos hs]
    exact ⟨by simpa using hback', by simpa using hblank', by simp [hs']⟩
  · simp only [if_neg hs]
    refine ⟨?_, fun c hc => ?_, ?_⟩
    · simp [undotted_eq, mem_rewritten_iff, hback']
    · rw [String.toList_ofList, undotted, List.head?_map, Option.map_eq_some_iff] at hc
      obtain ⟨d, hd, rfl⟩ := hc
      split
      · rfl
      · exact hblank' d hd
    · simp [undotted_eq, mem_rewritten_iff]

/-- The path of a settled name has no blanks around it. -/
theorem IsSettled.trim_path (h : n.IsSettled) : trim n.path.toList = n.path.toList := by
  -- The path starts as the name does, or with the extension, and ends with the extension.
  have hends : ∀ c, n.path.toList.head? = some c ∨ n.path.toList.getLast? = some c →
      isBlank c = false := by
    rw [toList_path]
    rintro c (hc | hc)
    · cases hn : n.internal.toList.head? with
      | none =>
        rw [List.head?_append, hn, Option.none_or] at hc
        obtain rfl := Option.some.inj hc
        rfl
      | some d =>
        rw [List.head?_append, hn, Option.some_or] at hc
        exact h.no_blank c (hn.trans hc)
    · rw [List.getLast?_append] at hc
      obtain rfl := Option.some.inj hc
      rfl
  have hnone : ∀ c ∈ ([] : List Char), isBlank c = true := by simp
  have happend := trim_append hends hnone hnone
  rwa [List.nil_append, List.append_nil] at happend

/-- **Settled names are the ones whose path is read as themselves.** -/
theorem ofSpelling_path_iff : ofSpelling n.path = n ↔ n.IsSettled := by
  constructor
  · intro h
    exact h ▸ isSettled_ofSpelling n.path
  · intro h
    rw [ofSpelling_eq, h.trim_path, ofTrimmed_path h.no_backslash h.slash_of_dot]

/-! ### Plain names -/

/-- A name without dots, backslashes and blanks. -/
def IsPlain (n : ClassName) : Prop :=
  ∀ c ∈ n.internal.toList, c ≠ '.' ∧ c ≠ '\\' ∧ isBlank c = false

instance : DecidablePred IsPlain := fun n =>
  List.decidableBAll (fun c => c ≠ '.' ∧ c ≠ '\\' ∧ isBlank c = false) n.internal.toList

/-- The name with dots between the packages. -/
def dotted (n : ClassName) : List Char := rewritten '/' '.' n.internal.toList

/-- The ways to write a name that leave no doubt which name it is: by slashes or by backslashes, as the
    path of its class file, and by dots in front of the extension. -/
def spellings (n : ClassName) : List (List Char) :=
  let internal := n.internal.toList
  [internal, rewritten '/' '\\' internal, internal ++ extension, n.dotted ++ extension]

namespace IsPlain

theorem dot_not_mem (h : n.IsPlain) : '.' ∉ n.internal.toList := fun hm => (h _ hm).1 rfl

theorem backslash_not_mem (h : n.IsPlain) : '\\' ∉ n.internal.toList := fun hm => (h _ hm).2.1 rfl

/-- An ending that starts with a dot is none of the name's own. -/
theorem trimSuffix_internal (h : n.IsPlain) :
    trimSuffix extension n.internal.toList = n.internal.toList :=
  trimSuffix_of_not_suffix fun hs => h.dot_not_mem (hs.subset (by decide))

/-- The dotted form has no slashes left. -/
theorem slash_not_mem_dotted (n : ClassName) : '/' ∉ n.dotted := by
  simp [dotted, mem_rewritten_iff]

theorem backslash_not_mem_dotted (h : n.IsPlain) : '\\' ∉ n.dotted := by
  simp [dotted, mem_rewritten_iff, h.backslash_not_mem]

theorem undotted_dotted (h : n.IsPlain) : undotted n.dotted = n.internal.toList :=
  rewritten_rewritten h.dot_not_mem

/-- With slashes, be they written as backslashes, a plain name is read as itself. -/
theorem ofTrimmed_of_slashed (h : n.IsPlain) (ht : slashed t = n.internal.toList) :
    ofTrimmed t = n := by
  have hund : undotted n.internal.toList = n.internal.toList := rewritten_of_not_mem h.dot_not_mem
  rw [ofTrimmed, ht]
  simp only [h.trimSuffix_internal, hund, ite_self, String.ofList_toList]

/-- With dots and the extension, a plain name is read as itself. -/
theorem ofTrimmed_dotted_append (h : n.IsPlain) : ofTrimmed (n.dotted ++ extension) = n := by
  have hback : '\\' ∉ n.dotted ++ extension := by
    rw [List.mem_append, not_or]
    exact ⟨h.backslash_not_mem_dotted, by decide⟩
  have hslash : '/' ∉ n.dotted ++ extension := by
    rw [List.mem_append, not_or]
    exact ⟨slash_not_mem_dotted n, by decide⟩
  rw [ofTrimmed_of_not_mem hback hslash, trimSuffix_append, h.undotted_dotted, String.ofList_toList]

/-- With dots alone, a plain name is read as itself unless its end is taken for the extension. -/
theorem ofTrimmed_dotted_iff (h : n.IsPlain) :
    ofTrimmed n.dotted = n ↔ ¬ extension <:+ n.dotted := by
  rw [ofTrimmed_of_not_mem h.backslash_not_mem_dotted (slash_not_mem_dotted n)]
  constructor
  · rintro he ⟨stem, hstem⟩
    -- What is read then is shorter than the name.
    have hlen := congrArg (fun m : ClassName => m.internal.toList.length) he
    have hdot : n.dotted.length = n.internal.toList.length := length_rewritten
    rw [← hstem, trimSuffix_append] at hlen
    rw [← hstem, List.length_append] at hdot
    simp only [undotted_eq, String.toList_ofList, length_rewritten] at hlen
    have hext : extension.length = 6 := rfl
    omega
  · intro hs
    rw [trimSuffix_of_not_suffix hs, h.undotted_dotted, String.ofList_toList]

/-- The end of the dotted form is the extension exactly if the class is called `class` and stands in a
    package. -/
theorem extension_suffix_dotted_iff (h : n.IsPlain) : extension <:+ n.dotted
    ↔ '/' :: ['c', 'l', 'a', 's', 's'] <:+ n.internal.toList := by
  constructor
  · rintro ⟨stem, hstem⟩
    refine ⟨undotted stem, ?_⟩
    rw [← h.undotted_dotted, ← hstem, undotted_eq, undotted_eq, rewritten_append]
    rfl
  · rintro ⟨s, hs⟩
    refine ⟨rewritten '/' '.' s, ?_⟩
    rw [dotted, ← hs, rewritten_append]
    rfl

end IsPlain

/-- Blanks around a spelling without any make no difference. -/
theorem ofSpelling_append (ht : ∀ c ∈ t, isBlank c = false) (hl : ∀ c ∈ left, isBlank c = true)
    (hr : ∀ c ∈ right, isBlank c = true) :
    ofSpelling (String.ofList (left ++ t ++ right)) = ofTrimmed t := by
  have hends : ∀ c, t.head? = some c ∨ t.getLast? = some c → isBlank c = false := fun c hc =>
    ht c (hc.elim List.mem_of_head? List.mem_of_getLast?)
  rw [ofSpelling_eq, String.toList_ofList, trim_append hends hl hr]

/-- No spelling of a plain name has a blank. -/
theorem isBlank_of_mem_spelling (h : n.IsPlain) (ht : t = n.dotted ∨ t ∈ n.spellings) :
    ∀ c ∈ t, isBlank c = false := by
  have hint : ∀ c ∈ n.internal.toList, isBlank c = false := fun c hc => (h c hc).2.2
  have hrew : ∀ b, isBlank b = false → ∀ c ∈ rewritten '/' b n.internal.toList, isBlank c = false := by
    intro b hb c hc
    rcases mem_rewritten_iff.1 hc with ⟨hc, -⟩ | ⟨rfl, -⟩
    · exact hint c hc
    · exact hb
  have hext : ∀ c ∈ extension, isBlank c = false := fun c hc =>
    Bool.eq_false_iff.2 (List.any_eq_false.1 (by decide : extension.any isBlank = false) c hc)
  have happend : ∀ s : List Char, (∀ c ∈ s, isBlank c = false) →
      ∀ c ∈ s ++ extension, isBlank c = false := fun s hs c hc =>
    (List.mem_append.1 hc).elim (hs c) (hext c)
  simp only [spellings, List.mem_cons, List.not_mem_nil, or_false] at ht
  rcases ht with rfl | rfl | rfl | rfl | rfl
  · exact hrew '.' rfl
  · exact hint
  · exact hrew '\\' rfl
  · exact happend _ hint
  · exact happend _ (hrew '.' rfl)

/-- Each spelling of a plain name is read as that name. -/
theorem ofTrimmed_of_mem_spellings (h : n.IsPlain) (ht : t ∈ n.spellings) : ofTrimmed t = n := by
  simp only [spellings, List.mem_cons, List.not_mem_nil, or_false] at ht
  rcases ht with rfl | rfl | rfl | rfl
  · exact h.ofTrimmed_of_slashed (rewritten_of_not_mem h.backslash_not_mem)
  · exact h.ofTrimmed_of_slashed (rewritten_rewritten h.backslash_not_mem)
  · rw [← toList_path]
    exact ofTrimmed_path h.backslash_not_mem fun hd => absurd hd h.dot_not_mem
  · exact h.ofTrimmed_dotted_append

/-! ### The law of reading -/

/-- **Spellings settle.** The path of a name that was read is read as that name. A plain name is read
    from each of its spellings, whatever blanks stand around it, and from its dotted form too, unless
    that ends in a package's class called `class`. -/
theorem ofSpelling_settles :
    (∀ s, ofSpelling (ofSpelling s).path = ofSpelling s)
      ∧ ∀ n : ClassName, n.IsPlain → ∀ left right : List Char,
        (∀ c ∈ left, isBlank c = true) → (∀ c ∈ right, isBlank c = true) →
          (∀ t ∈ n.spellings, ofSpelling (String.ofList (left ++ t ++ right)) = n)
            ∧ (ofSpelling (String.ofList (left ++ n.dotted ++ right)) = n
              ↔ ¬ (1 < (pieces '/' n.internal.toList).length
                ∧ (pieces '/' n.internal.toList).getLast? = some ['c', 'l', 'a', 's', 's'])) := by
  refine ⟨fun s => ofSpelling_path_iff.2 (isSettled_ofSpelling s), ?_⟩
  intro n hn left right hl hr
  constructor
  · intro t ht
    rw [ofSpelling_append (isBlank_of_mem_spelling hn (.inr ht)) hl hr,
      ofTrimmed_of_mem_spellings hn ht]
  · rw [ofSpelling_append (isBlank_of_mem_spelling hn (.inl rfl)) hl hr, hn.ofTrimmed_dotted_iff,
      hn.extension_suffix_dotted_iff, separator_cons_suffix_iff (by decide)]

/-- A class called `class` is found by its dotted form if it is in no package. In one it is found by all
    other spellings. -/
theorem ofSpelling_settles_class :
    ofSpelling (String.ofList ([' ', '\t'] ++ ClassName.dotted ⟨"class"⟩ ++ ['\r'])) = ⟨"class"⟩
      ∧ (ClassName.IsPlain ⟨"a/class"⟩ ∧ "a.class.class".toList ∈ ClassName.spellings ⟨"a/class"⟩
        ∧ ofSpelling (String.ofList ([] ++ "a.class.class".toList ++ ['\u3000'])) = ⟨"a/class"⟩
        ∧ ofSpelling (String.ofList ([] ++ ClassName.dotted ⟨"a/class"⟩ ++ [])) ≠ ⟨"a/class"⟩) := by
  have hnone : ∀ c ∈ ([] : List Char), isBlank c = true := List.all_eq_true.1 rfl
  have htab : ∀ c ∈ [' ', '\t'], isBlank c = true := List.all_eq_true.1 (by decide)
  have hreturn : ∀ c ∈ ['\r'], isBlank c = true := List.all_eq_true.1 (by decide)
  have hwide : ∀ c ∈ ['\u3000'], isBlank c = true := List.all_eq_true.1 (by decide)
  refine ⟨?_, by decide, by decide, ?_, ?_⟩
  · exact (ofSpelling_settles.2 ⟨"class"⟩ (by decide) _ _ htab hreturn).2.2 (by decide)
  · exact (ofSpelling_settles.2 ⟨"a/class"⟩ (by decide) _ _ hnone hwide).1 _ (by decide)
  · intro h
    exact (ofSpelling_settles.2 ⟨"a/class"⟩ (by decide) _ _ hnone hnone).2.1 h (by decide)

end ClassName

end PrimaryDex
