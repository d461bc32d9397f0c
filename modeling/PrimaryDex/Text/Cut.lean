namespace PrimaryDex.Text

/-!
# Cutting text

Texts are cut as lists of characters:

* `dropSuffix?` — removes an ending; `dropSuffix?_eq_some_iff` says that it inverts appending;
* `pieces` — the parts between the occurrences of a separator, empty ones included;
  `pieces_append` says that a separator between two texts separates their pieces,
  `intercalate_pieces` that no character is lost, and `pieces_intercalate` that texts without
  separators are found again.
-/

/-- The text without the ending `e`, if it has that ending. -/
def dropSuffix? (e t : List Char) : Option (List Char) :=
  if e.isSuffixOf t then some (t.take (t.length - e.length)) else none

/-- An ending that was appended is removed. -/
theorem dropSuffix?_append (e t : List Char) : dropSuffix? e (t ++ e) = some t := by
  simp [dropSuffix?]

/-- Removing an ending inverts appending it. -/
theorem dropSuffix?_eq_some_iff {e t r : List Char} : dropSuffix? e t = some r ↔ t = r ++ e := by
  constructor
  · intro h
    simp only [dropSuffix?] at h
    split at h
    · rename_i hs
      obtain ⟨p, rfl⟩ := List.isSuffixOf_iff_suffix.1 hs
      simp at h
      rw [h]
    · exact absurd h (by simp)
  · rintro rfl
    exact dropSuffix?_append e r

/-- The text without its ending `e`, or the text itself if it does not end so. Only one copy of the
    ending goes. -/
def trimSuffix (e t : List Char) : List Char :=
  (dropSuffix? e t).getD t

/-- An ending that was appended is trimmed, one copy of it. -/
@[simp] theorem trimSuffix_append (e t : List Char) : trimSuffix e (t ++ e) = t := by
  simp [trimSuffix, dropSuffix?_append]

/-- Puts a character in front of the first of some pieces, or a new piece if it separates. -/
def pieceCons (sep c : Char) (ps : List (List Char)) : List (List Char) :=
  if c = sep then [] :: ps
  else match ps with
    | [] => [[c]]
    | p :: ps => (c :: p) :: ps

/-- The parts of a text between the occurrences of `sep`. -/
def pieces (sep : Char) (t : List Char) : List (List Char) :=
  t.foldr (pieceCons sep) [[]]

/-- Nothing is one empty piece. -/
@[simp] theorem pieces_nil (sep : Char) : pieces sep [] = [[]] := rfl

/-- A character goes to the first piece, or starts one. -/
theorem pieces_cons (sep c : Char) (t : List Char) :
    pieces sep (c :: t) = pieceCons sep c (pieces sep t) := rfl

/-- There is always a first piece. -/
theorem pieces_ne_nil (sep : Char) (t : List Char) : pieces sep t ≠ [] := by
  cases t with
  | nil => simp
  | cons c t =>
    simp only [pieces_cons, pieceCons]
    split
    · simp
    · split <;> simp

/-- A separator between two texts separates their pieces. -/
theorem pieces_append (sep : Char) (a b : List Char) :
    pieces sep (a ++ sep :: b) = pieces sep a ++ pieces sep b := by
  induction a with
  | nil => simp [pieces_cons, pieceCons]
  | cons c a ih =>
    rw [List.cons_append, pieces_cons, pieces_cons, ih]
    -- A separator starts a piece of its own in both, any other character joins the first piece of
    -- `a`.
    by_cases hc : c = sep
    · simp [pieceCons, hc]
    · cases h : pieces sep a with
      | nil => exact absurd h (pieces_ne_nil sep a)
      | cons p ps => simp [pieceCons, hc]

/-- The pieces with the separator between them are the text. -/
theorem intercalate_pieces (sep : Char) (t : List Char) :
    [sep].intercalate (pieces sep t) = t := by
  induction t with
  | nil => simp
  | cons c t ih =>
    rw [pieces_cons]
    cases h : pieces sep t with
    | nil => exact absurd h (pieces_ne_nil sep t)
    | cons p ps =>
      rw [h] at ih
      by_cases hc : c = sep
      · cases ps <;> simp_all [pieceCons, List.intercalate]
      · cases ps <;> simp_all [pieceCons, List.intercalate]

/-- No piece holds the separator. -/
theorem not_mem_of_mem_pieces {sep : Char} {t p : List Char} (h : p ∈ pieces sep t) : sep ∉ p := by
  induction t generalizing p with
  | nil => simp_all
  | cons c t ih =>
    rw [pieces_cons] at h
    by_cases hc : c = sep
    · simp only [pieceCons, hc, if_true, List.mem_cons] at h
      rcases h with rfl | h
      · simp
      · exact ih h
    · cases hp : pieces sep t with
      | nil => exact absurd hp (pieces_ne_nil sep t)
      | cons q ps =>
        simp only [hp, pieceCons, hc, if_false, List.mem_cons] at h ih
        rcases h with rfl | h
        · simpa [Ne.symm hc] using ih (.inl rfl)
        · exact ih (.inr h)

/-- A text without the separator is one piece. -/
theorem pieces_of_not_mem {sep : Char} {t : List Char} (h : sep ∉ t) : pieces sep t = [t] := by
  induction t with
  | nil => rfl
  | cons c t ih =>
    rw [List.mem_cons, not_or] at h
    rw [pieces_cons, ih h.2, pieceCons, if_neg (Ne.symm h.1)]

/-- Texts without the separator are found again as pieces. -/
theorem pieces_intercalate {sep : Char} {ps : List (List Char)} (hne : ps ≠ [])
    (h : ∀ p ∈ ps, sep ∉ p) : pieces sep ([sep].intercalate ps) = ps := by
  induction ps with
  | nil => exact absurd rfl hne
  | cons p ps ih =>
    have hp := pieces_of_not_mem (h p (List.mem_cons_self ..))
    cases ps with
    | nil => rwa [List.intercalate_singleton]
    | cons q qs =>
      rw [List.intercalate_cons_cons, List.append_assoc, List.singleton_append, pieces_append, hp,
        ih (by simp) fun r hr => h r (List.mem_cons_of_mem _ hr)]
      rfl

end PrimaryDex.Text
