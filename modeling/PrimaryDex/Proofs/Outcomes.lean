import Mathlib.Data.List.Forall2

namespace PrimaryDex

/-!
# Results and faults

What can be said of a computation that may fail from what is said of its steps.

* `bind_eq_ok_iff`, `map_eq_ok` — one step and what is made of its result;
* `mapError_eq_ok_iff`, `mapError_map` — faults in other words;
* `mapM_eq_ok_iff`, `exists_mapM_iff` — a whole list has results exactly if each element has one, and
  `exists_first_of_mapM_eq_error` says which fault it has otherwise;
* `mem_filterMapM_iff` — the results of a list of which some elements are left out.
-/

variable {ε ε' α β : Type}

/-! ### Steps -/

section

variable {x y : Except ε α}

/-- Two steps succeed exactly if the first one does and then the second one. -/
theorem bind_eq_ok_iff {f : α → Except ε β} {b : β} :
    (x >>= f) = .ok b ↔ ∃ a, x = .ok a ∧ f a = .ok b := by
  cases x <;> simp [bind, Except.bind]

/-- The image of a result comes from a result. -/
theorem map_eq_ok {f : α → β} {b : β} (h : f <$> x = .ok b) : ∃ a, x = .ok a ∧ f a = b := by
  cases x with
  | error e => simp [Functor.map, Except.map] at h
  | ok a => exact ⟨a, rfl, by simpa [Functor.map, Except.map] using h⟩

/-- The image of a fault is that fault. -/
theorem map_eq_error {f : α → β} {e : ε} (h : f <$> x = .error e) : x = .error e := by
  cases x with
  | error e' => simpa [Functor.map, Except.map] using h
  | ok a => simp [Functor.map, Except.map] at h

/-! ### Faults in other words -/

variable {reword : ε → ε'}

/-- Rewording a fault does not make a success of it. -/
theorem mapError_eq_ok_iff {a : α} : x.mapError reword = .ok a ↔ x = .ok a := by
  cases x <;> simp [Except.mapError]

/-- Two outcomes that are the same up to a rewording succeed alike. -/
theorem eq_ok_of_mapError_eq (h : y.mapError reword = x.mapError reword) {a : α}
    (hx : x = .ok a) : y = .ok a := by
  rw [hx] at h
  exact mapError_eq_ok_iff.1 h

/-- A fault up to its wording is a fault. -/
theorem exists_error_of_mapError_eq (h : y.mapError reword = x.mapError reword) {e : ε}
    (hx : x = .error e) : ∃ e', y = .error e' ∧ reword e' = reword e := by
  subst hx
  cases y with
  | error e' => exact ⟨e', rfl, Except.error.inj h⟩
  | ok a => simp [Except.mapError] at h

/-- What is made of a result is the same up to the wording of faults. -/
theorem mapError_map {f : α → β} (h : y.mapError reword = x.mapError reword) :
    (f <$> y).mapError reword = (f <$> x).mapError reword := by
  cases hx : x with
  | ok a => rw [eq_ok_of_mapError_eq h hx]
  | error e =>
    obtain ⟨e', rfl, he⟩ := exists_error_of_mapError_eq h hx
    exact congrArg Except.error he

end

/-! ### Lists -/

section

variable {f : α → Except ε β} {xs : List α} {ys : List β}

/-- All of a list is gone through exactly if each of its elements has a result. -/
theorem mapM_eq_ok_iff :
    xs.mapM f = .ok ys ↔ List.Forall₂ (fun x y => f x = .ok y) xs ys := by
  induction xs generalizing ys with
  | nil => cases ys <;> simp [pure, Except.pure]
  | cons x xs ih =>
    rw [List.mapM_cons, List.forall₂_cons_left_iff]
    simp only [bind_eq_ok_iff, ← ih]
    refine exists_congr fun y => ?_
    simp [pure, Except.pure, eq_comm]

/-- If all of a list is gone through, each of its elements has a result. -/
theorem exists_of_mapM_eq_ok (h : xs.mapM f = .ok ys) {x : α} (hx : x ∈ xs) :
    ∃ y ∈ ys, f x = .ok y := by
  have hall := mapM_eq_ok_iff.1 h
  -- The induction is on the pairs of elements and results.
  clear h
  induction hall with
  | nil => simp at hx
  | @cons x' y' xs ys hy _ ih =>
    rcases List.mem_cons.1 hx with rfl | hx
    · exact ⟨y', List.mem_cons_self .., hy⟩
    · obtain ⟨y, hmem, he⟩ := ih hx
      exact ⟨y, List.mem_cons_of_mem _ hmem, he⟩

/-- What goes wrong in a list is what goes wrong first. -/
theorem exists_first_of_mapM_eq_error {e : ε} (h : xs.mapM f = .error e) :
    ∃ front x rest, xs = front ++ x :: rest ∧ (∀ y ∈ front, ∃ b, f y = .ok b) ∧ f x = .error e := by
  induction xs with
  | nil => simp [pure, Except.pure] at h
  | cons x xs ih =>
    rw [List.mapM_cons] at h
    cases hx : f x with
    | error e' =>
      simp only [hx, bind, Except.bind, Except.error.injEq] at h
      exact ⟨[], x, xs, rfl, by simp, h ▸ hx⟩
    | ok b =>
      cases hxs : xs.mapM f with
      | ok bs => simp [hx, hxs, bind, Except.bind, pure, Except.pure] at h
      | error e' =>
        simp only [hx, hxs, bind, Except.bind, Except.error.injEq] at h
        -- The first fault of the rest is the first of all, as the element in front has a result.
        obtain ⟨front, y, rest, rfl, hfront, hy⟩ := ih (h ▸ hxs)
        exact ⟨x :: front, y, rest, rfl, List.forall_mem_cons.2 ⟨⟨b, hx⟩, hfront⟩, hy⟩

/-- All of a list has results exactly if each element has one. -/
theorem exists_mapM_iff : (∃ ys, xs.mapM f = .ok ys) ↔ ∀ x ∈ xs, ∃ y, f x = .ok y := by
  constructor
  · rintro ⟨ys, h⟩ x hx
    obtain ⟨y, -, hy⟩ := exists_of_mapM_eq_ok h hx
    exact ⟨y, hy⟩
  · intro hall
    cases h : xs.mapM f with
    | ok ys => exact ⟨ys, rfl⟩
    | error e =>
      obtain ⟨front, x, rest, rfl, -, hx⟩ := exists_first_of_mapM_eq_error h
      obtain ⟨y, hy⟩ := hall x (by simp)
      simp [hx] at hy

end

/-- If all calls succeed, the results are what they gave. -/
theorem mem_filterMapM_iff {f : α → Except ε (Option β)} {xs : List α} {ys : List β}
    (h : xs.filterMapM f = .ok ys) {y : β} : y ∈ ys ↔ ∃ x ∈ xs, f x = .ok (some y) := by
  induction xs generalizing ys with
  | nil =>
    obtain rfl := Except.ok.inj h
    simp
  | cons x xs ih =>
    rw [List.filterMapM_cons, bind_eq_ok_iff] at h
    obtain ⟨o, hx, h⟩ := h
    -- The first element is left out, or its result stands in front.
    cases o with
    | none => simp [ih h, hx]
    | some z =>
      obtain ⟨zs, hzs, h⟩ := bind_eq_ok_iff.1 h
      obtain rfl := Except.ok.inj h
      simp [ih hzs, hx, eq_comm]

end PrimaryDex
