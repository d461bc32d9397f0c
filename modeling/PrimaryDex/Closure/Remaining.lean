import PrimaryDex.ClassName

namespace PrimaryDex

/-!
# What remains to be seen

A search ends because each name is seen once. The names come from a finite list `names`, apart from
those with which the search started.

* `remaining` — how many names can still be seen;
* `remaining_le`, `lex_remaining_tail` — dropping a name does not increase it;
* `remaining_lt` — seeing a new name decreases it, whatever names of the list come up.
-/

/-- The elements of `todo` that are not in `names`. -/
def outside (names todo : List ClassName) : List ClassName :=
  todo.filter fun n => !names.contains n

/-- The number of names that are not `seen`, among `names` and among those in `todo` outside it. -/
def remaining (names : List ClassName) (seen : ClassName → Bool) (todo : List ClassName) : Nat :=
  names.countP (fun n => !seen n) + (outside names todo).countP fun n => !seen n

/-- What is outside the names is counted piece by piece. -/
theorem outside_append (names xs ys : List ClassName) :
    outside names (xs ++ ys) = outside names xs ++ outside names ys :=
  List.filter_append ..

/-- Among the names themselves, nothing is outside. -/
theorem outside_of_subset {names xs : List ClassName} (h : xs ⊆ names) : outside names xs = [] := by
  rw [outside, List.filter_eq_nil_iff]
  intro n hn
  simp [h hn]

/-- Moving an element of `names` within `todo` leaves the outside as it is. -/
theorem outside_erase {names xs : List ClassName} {a : ClassName} (h : a ∈ names) :
    outside names (xs.erase a) = outside names xs := by
  induction xs with
  | nil => rfl
  | cons x xs ih =>
    by_cases hx : x = a
    · subst hx
      simp [outside, h]
    · rw [List.erase_cons_tail (by simp [hx])]
      simp only [outside, List.filter_cons] at ih ⊢
      rw [ih]

/-- No more names remain than there are at all. -/
theorem remaining_le_length (names : List ClassName) (seen : ClassName → Bool)
    (todo : List ClassName) : remaining names seen todo ≤ names.length + todo.length := by
  have hnames : names.countP (fun n => !seen n) ≤ names.length := List.countP_le_length
  have hcount : (outside names todo).countP (fun n => !seen n) ≤ (outside names todo).length :=
    List.countP_le_length
  have htodo : (outside names todo).length ≤ todo.length := List.length_filter_le _ _
  unfold remaining
  omega

/-- If the list stays within the names, only the names count. -/
theorem remaining_of_subset {names todo : List ClassName} (seen : ClassName → Bool)
    (h : todo ⊆ names) : remaining names seen todo = names.countP fun n => !seen n := by
  rw [remaining, outside_of_subset h, List.countP_nil, Nat.add_zero]

/-- Dropping a name does not make more names remain. -/
theorem remaining_le (names : List ClassName) (seen : ClassName → Bool) (a : ClassName)
    (todo : List ClassName) : remaining names seen todo ≤ remaining names seen (a :: todo) := by
  simp only [remaining, outside, List.filter_cons]
  split
  · simp only [List.countP_cons]
    omega
  · exact Nat.le_refl _

/-- Dropping a name decreases what remains or, with it, a list that gets shorter. -/
theorem lex_remaining_tail (names : List ClassName) (seen : ClassName → Bool) (a : ClassName)
    (todo : List ClassName) {k l : Nat} (h : k < l) :
    Prod.Lex (· < ·) (· < ·) (remaining names seen todo, k) (remaining names seen (a :: todo), l) := by
  rcases Nat.lt_or_eq_of_le (remaining_le names seen a todo) with hr | hr
  · exact Prod.Lex.left _ _ hr
  · rw [hr]
    exact Prod.Lex.right _ h

/-- **Progress.** Once a name that was not seen is, fewer names remain, if the list has gained
    nothing outside the names. -/
theorem remaining_lt {names todo todo' : List ClassName} {seen seen' : ClassName → Bool}
    {a : ClassName} (ha : seen a = false) (hs : ∀ n, seen' n = (seen n || n == a))
    (ho : outside names todo' = outside names todo) :
    remaining names seen' todo' < remaining names seen (a :: todo) := by
  have mono : ∀ n, (!seen' n) = true → (!seen n) = true := by
    intro n h
    rw [hs] at h
    cases hn : seen n <;> simp_all
  have ha' : seen' a = true := by simp [hs]
  have fewer (xs : List ClassName) :
      xs.countP (fun n => !seen' n) ≤ xs.countP (fun n => !seen n) :=
    List.countP_mono_left fun n _ h => mono n h
  have h2 := fewer (outside names todo)
  simp only [remaining, ho]
  -- A name of the list is counted among the names, any other one where it stands in `todo`.
  by_cases hm : a ∈ names
  · have h1 : names.countP (fun n => !seen' n) < names.countP (fun n => !seen n) := by
      obtain ⟨s, t, rfl⟩ := List.append_of_mem hm
      have hl := fewer s
      have hr := fewer t
      simp only [List.countP_append, List.countP_cons, ha, ha']
      simp
      omega
    have h3 : outside names (a :: todo) = outside names todo := by simp [outside, hm]
    rw [h3]
    omega
  · have h1 := fewer names
    have h3 : outside names (a :: todo) = a :: outside names todo := by simp [outside, hm]
    rw [h3, List.countP_cons, ha]
    simp
    omega

end PrimaryDex
