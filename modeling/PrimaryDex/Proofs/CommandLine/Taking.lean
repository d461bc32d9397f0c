import Mathlib.Logic.Relation
import PrimaryDex.CommandLine.ImplicitBuild
import PrimaryDex.Proofs.Outcomes

namespace PrimaryDex

open Relation

/-!
# What an argument does

A line of arguments is taken one by one, and each of them is an option, the value that an option waits
for, or what the next position sets.

* `Shape.awaits` — whether an argument is an option that waits for the next argument as its value;
* `isCluster` — whether it is several letters of which the last one waits so;
  `awaits_ofArgument_iff` says that all others that wait are in `optionsWithValue`;
* `Progress.SetsOption` — how one option is set. Several letters set several;
* `Progress.Taken` — the three things that taking an argument can do; `taken_of_take` says so;
* `Progress.Sets` — a parameter has got its value, which no later argument changes (`Taken.sets`);
* `Progress.Touches` — a parameter is set or about to be, which only an option or a position starts
  (`SetsOption.touches`).
-/

/-! ### Options that wait for a value -/

/-- Whether letters of options end in one that waits for a value. -/
def lettersAwait : List Char → Bool
  | [] => false
  | c :: cs =>
    match Level.build.lettered? c with
    | some x => if x.takesValue then cs.isEmpty else lettersAwait cs
    | none => false

/-- Whether an argument of this shape is an option that waits for the next argument. -/
def Shape.awaits : Shape → Bool
  | .named name none => (Level.build.named? name).any Parameter.takesValue
  | .letters cs => lettersAwait cs
  | _ => false

/-- Whether an argument is several letters of options, of which the last one waits for a value. -/
def isCluster (a : String) : Bool :=
  match Shape.ofArgument a with
  | .letters (c :: d :: cs) => lettersAwait (c :: d :: cs)
  | _ => false

namespace Level

/-- The options of each level are understood behind the command to build. -/
theorem find?_build_of_find? {l : Level} {f : Parameter → Bool} {x : Parameter}
    (h : l.options.find? f = some x) : build.options.find? f = some x := by
  have general (h : generalOptions.find? f = some x) : build.options.find? f = some x := by
    show (generalOptions ++ _).find? f = some x
    rw [List.find?_append, h]
    rfl
  cases l with
  | top => exact general h
  | build => exact h
  | list => exact general h

/-- An option with a value that is spelled out stands in the list of those. -/
theorem mem_optionsWithValue_of_named? {l : Level} {name : String} {x : Parameter}
    (h : l.named? name = some x) (hx : x.takesValue = true) :
    "--" ++ name ∈ CommandLine.optionsWithValue := by
  have hname : x.name? = some name := by simpa using List.find?_some h
  -- One option after the other: those that take a value and have a name are all in the list.
  cases x with
  | verbose | quiet | help => simp [Parameter.takesValue] at hx
  | roots | classPath | location => simp [Parameter.name?] at hname
  | config | root | rootsFile | format | output =>
    rw [Parameter.name?, Option.some.injEq] at hname
    subst hname
    decide

/-- A single letter of an option with a value stands there too. -/
theorem mem_optionsWithValue_of_lettered? {l : Level} {c : Char} {x : Parameter}
    (h : l.lettered? c = some x) (hx : x.takesValue = true) :
    String.ofList ['-', c] ∈ CommandLine.optionsWithValue := by
  have hletter : x.letter? = some c := by simpa using List.find?_some h
  cases x with
  | verbose | quiet | help => simp [Parameter.takesValue] at hx
  | config | root | rootsFile | roots | classPath | location => simp [Parameter.letter?] at hletter
  | format | output =>
    rw [Parameter.letter?, Option.some.injEq] at hletter
    subst hletter
    decide

end Level

/-! ### Shapes of arguments -/

namespace Shape

variable {a : String}

/-- An argument with a name starts with two dashes and has something behind them. -/
theorem ofArgument_eq_named {name : String} {value : Option String}
    (h : ofArgument a = .named name value) :
    ∃ t ≠ [], a.toList = '-' :: '-' :: t ∧ namedShape t = .named name value := by
  unfold ofArgument at h
  split at h
  · simp at h
  · rename_i t hne ha
    exact ⟨t, hne, ha, h⟩
  · simp at h
  · simp at h

/-- Letters stand behind a single dash. -/
theorem ofArgument_eq_letters {cs : List Char} (h : ofArgument a = .letters cs) :
    cs ≠ [] ∧ a = String.ofList ('-' :: cs) := by
  unfold ofArgument at h
  split at h
  · simp at h
  · rename_i t _ ha
    unfold namedShape at h
    split at h <;> simp at h
  · rename_i c t _ _ ha
    rw [letters.injEq] at h
    subst h
    exact ⟨by simp, by rw [← ha, String.ofList_toList]⟩
  · simp at h

/-- An argument with a name and no value is the name behind two dashes. -/
theorem eq_of_ofArgument_eq_named {name : String} (h : ofArgument a = .named name none) :
    a = "--" ++ name := by
  obtain ⟨t, -, ha, ht⟩ := ofArgument_eq_named h
  unfold namedShape at ht
  split at ht
  · rw [named.injEq] at ht
    rw [← ht.1, ← String.toList_inj, ha]
    simp
  · simp at ht

/-- Two dashes alone are an argument of their own. -/
theorem ofArgument_eq_dashes_iff : ofArgument a = .dashes ↔ a = "--" := by
  constructor
  · intro h
    unfold ofArgument at h
    split at h
    · rename_i ha
      rw [← String.toList_inj, ha]
      rfl
    · unfold namedShape at h
      split at h <;> simp at h
    · simp at h
    · simp at h
  · rintro rfl
    rfl

/-- What is neither plain nor two dashes has the form of an option. -/
theorem isOption_of_ofArgument (h : ofArgument a ≠ .plain) : CommandLine.isOption a = true := by
  unfold CommandLine.isOption
  unfold ofArgument at h
  split at h <;> simp_all

/-- The only plain argument with the form of an option is a single dash. -/
theorem eq_dash_of_plain (h : ofArgument a = .plain) (ho : CommandLine.isOption a = true) :
    a = "-" := by
  rw [← String.toList_inj]
  unfold CommandLine.isOption at ho
  unfold ofArgument at h
  cases ha : a.toList with
  | nil => simp [ha] at ho
  | cons c t =>
    obtain rfl : c = '-' := by simpa [ha] using ho
    cases t with
    | nil => rfl
    | cons d t =>
      rw [ha] at h
      split at h
      · simp at h
      · unfold namedShape at h
        split at h <;> simp at h
      · simp at h
      · simp_all

/-- Letters that wait for a value are a single one in the list of those that do, or a cluster. -/
theorem mem_optionsWithValue_or_isCluster {cs : List Char} (hs : ofArgument a = .letters cs)
    (h : lettersAwait cs = true) : a ∈ CommandLine.optionsWithValue ∨ isCluster a = true := by
  obtain ⟨hne, ha⟩ := ofArgument_eq_letters hs
  match cs with
  | [] => exact absurd rfl hne
  | [c] =>
    unfold lettersAwait at h
    split at h
    · rename_i x hx
      by_cases hv : x.takesValue = true
      · rw [ha]
        exact .inl (Level.mem_optionsWithValue_of_lettered? hx hv)
      · simp [hv, lettersAwait] at h
    · simp at h
  | c :: d :: cs =>
    refine .inr ?_
    simpa only [isCluster, hs] using h

/-- An option waits for its value if it is in the list of those that do, or a cluster. -/
theorem awaits_ofArgument_iff : (ofArgument a).awaits = true
    ↔ a ∈ CommandLine.optionsWithValue ∨ isCluster a = true := by
  constructor
  · intro h
    cases hs : ofArgument a with
    | dashes => simp [hs, awaits] at h
    | plain => simp [hs, awaits] at h
    | named name value =>
      cases value with
      | some value => simp [hs, awaits] at h
      | none =>
        rw [hs, awaits, Option.any_eq_true] at h
        obtain ⟨x, hx, hv⟩ := h
        rw [eq_of_ofArgument_eq_named hs]
        exact .inl (Level.mem_optionsWithValue_of_named? hx hv)
    | letters cs =>
      rw [hs, awaits] at h
      exact mem_optionsWithValue_or_isCluster hs h
  · rintro (h | h)
    · -- The options of the list are tried out.
      have hall : ∀ b ∈ CommandLine.optionsWithValue, (ofArgument b).awaits = true := by
        decide +kernel
      exact hall a h
    · unfold isCluster at h
      split at h
      · rename_i hs
        rw [hs]
        exact h
      · simp at h

end Shape

namespace Progress

variable {p q : Progress} {a : String} {x : Parameter}

/-! ### What is checked -/

/-- A value is added behind all others, and only to a parameter that may have one more. -/
theorem add_eq_ok {value : String} (h : p.add x value = .ok q) :
    (p.isSet x = true → x.isRepeatable = true)
      ∧ q = { p with given := p.given ++ [(x, value)] } := by
  unfold add at h
  split at h
  · simp at h
  · rename_i hset
    split at h
    · simp at h
    · refine ⟨fun hs => ?_, (Except.ok.inj h).symm⟩
      simpa [hs] using hset

/-- A check leaves nothing to wait for and does not touch the level and the positions. -/
theorem of_check (h : p.check = .ok q) :
    q.level = p.level ∧ q.positions = p.positions ∧ q.unchecked = none := by
  unfold check at h
  split at h
  · rename_i hu
    obtain rfl := Except.ok.inj h
    exact ⟨rfl, rfl, hu⟩
  · simp at h
  · obtain ⟨-, rfl⟩ := add_eq_ok h
    exact ⟨rfl, rfl, rfl⟩

/-- A check that succeeds found no option without its value. -/
theorem awaitsValue_of_check (h : p.check = .ok q) : p.awaitsValue = false := by
  unfold check at h
  unfold awaitsValue
  split at h <;> simp_all

/-! ### What an option does -/

/-- One option is set. It is checked at once unless it waits for its value. -/
inductive SetsOption (p : Progress) : Progress → Prop where
  | given {x : Parameter} {value : String} {r : Progress} (hx : x ∈ p.level.options)
      (hr : p.check = .ok r) : SetsOption p { r with given := r.given ++ [(x, value)] }
  | waiting {x : Parameter} {r : Progress} (hx : x ∈ p.level.options) (hr : p.check = .ok r) :
      SetsOption p { r with unchecked := some (x, none) }

/-- Options stay on their level. -/
theorem SetsOption.level_eq (h : SetsOption p q) : q.level = p.level := by
  cases h with
  | given _ hr => exact (of_check hr).1
  | waiting _ hr => exact (of_check hr).1

theorem SetsOption.positions_eq (h : SetsOption p q) : q.positions = p.positions := by
  cases h with
  | given _ hr => exact (of_check hr).2.1
  | waiting _ hr => exact (of_check hr).2.1

/-- Where a value is awaited, there is no place for an option. -/
theorem SetsOption.not_awaitsValue (h : SetsOption p q) : p.awaitsValue = false := by
  cases h with
  | given _ hr => exact awaitsValue_of_check hr
  | waiting _ hr => exact awaitsValue_of_check hr

/-- An option without a value is set at once. -/
theorem of_addFlag (hx : x ∈ p.level.options) (h : p.addFlag x = .ok q) :
    SetsOption p q ∧ q.awaitsValue = false := by
  obtain ⟨r, hr, h⟩ := bind_eq_ok_iff.1 h
  by_cases hh : x = .help
  · simp [hh, bind, Except.bind, throw, throwThe, MonadExceptOf.throw] at h
  · rw [if_neg hh] at h
    obtain ⟨-, rfl⟩ := add_eq_ok h
    exact ⟨.given hx hr, by simp [awaitsValue, (of_check hr).2.2]⟩

/-- An option with a value is set at once if the value is attached, and waits otherwise. -/
theorem of_addOption {attached : Option String} (hx : x ∈ p.level.options)
    (h : p.addOption x attached = .ok q) : SetsOption p q ∧ q.awaitsValue = attached.isNone := by
  obtain ⟨r, hr, h⟩ := bind_eq_ok_iff.1 h
  cases attached with
  | none =>
    obtain rfl := Except.ok.inj h
    exact ⟨.waiting hx hr, rfl⟩
  | some value =>
    obtain ⟨-, rfl⟩ := add_eq_ok h
    exact ⟨.given hx hr, by simp [awaitsValue, (of_check hr).2.2]⟩

/-- Whatever follows the letter of an option is its value. -/
theorem attached?_isNone (cs : List Char) : (attached? cs).isNone = cs.isEmpty := by
  unfold attached?
  split <;> simp_all

/-- Letters set one option after the other and wait for a value if the last one does. On some levels
    no letter can. -/
theorem of_takeLetters {cs : List Char} (hne : cs ≠ []) (h : p.takeLetters cs = .ok q) :
    TransGen SetsOption p q ∧ q.awaitsValue = lettersAwait cs
      ∧ (lettersAwait cs = true → ∃ c x, p.level.lettered? c = some x ∧ x.takesValue = true) := by
  -- By induction on the letters: each one but the last is a flag, as one with a value takes all
  -- letters behind it.
  induction cs generalizing p with
  | nil => exact absurd rfl hne
  | cons c cs ih =>
    unfold takeLetters at h
    split at h
    · simp at h
    · rename_i x hx
      have hm : x ∈ p.level.options := List.mem_of_find?_eq_some hx
      have hb : Level.build.lettered? c = some x := Level.find?_build_of_find? hx
      by_cases hv : x.takesValue = true
      · rw [if_pos hv] at h
        obtain ⟨hs, ha⟩ := of_addOption hm h
        refine ⟨.single hs, ?_, fun _ => ⟨c, x, hx, hv⟩⟩
        rw [ha, attached?_isNone, lettersAwait, hb]
        exact (if_pos hv).symm
      · rw [if_neg hv] at h
        have hw : lettersAwait (c :: cs) = lettersAwait cs := by
          rw [lettersAwait, hb]
          exact if_neg hv
        rw [hw]
        split at h
        · rename_i r hr
          obtain ⟨hs, ha⟩ := of_addFlag hm hr
          cases cs with
          | nil =>
            obtain rfl := Except.ok.inj h
            exact ⟨.single hs, ha, by simp [lettersAwait]⟩
          | cons d ds =>
            obtain ⟨hs', ha', hex⟩ := ih (by simp) h
            -- The other letters are looked up on the same level.
            rw [hs.level_eq] at hex
            exact ⟨.head hs hs', ha', hex⟩
        · simp at h

/-- A name sets one option, which waits for a value as its shape says. -/
theorem of_takeNamed {name : String} {value : Option String}
    (h : p.takeNamed name value = .ok q) :
    SetsOption p q ∧ q.awaitsValue = (Shape.named name value).awaits := by
  unfold takeNamed at h
  split at h
  · simp at h
  · rename_i x hx
    have hm : x ∈ p.level.options := List.mem_of_find?_eq_some hx
    have hb : Level.build.named? name = some x := Level.find?_build_of_find? hx
    by_cases hv : x.takesValue = true
    · rw [if_pos hv] at h
      obtain ⟨hs, ha⟩ := of_addOption hm h
      refine ⟨hs, ha.trans ?_⟩
      cases value <;> simp [Shape.awaits, hb, hv]
    · rw [if_neg hv] at h
      split at h
      · simp at h
      · rename_i hval
        obtain rfl : value = none := by simpa using hval
        obtain ⟨hs, ha⟩ := of_addFlag hm h
        exact ⟨hs, ha.trans (by simp [Shape.awaits, hb, hv])⟩

/-! ### What an argument does -/

/-- What taking an argument can do. -/
inductive Taken (p : Progress) (a : String) : Progress → Prop where
  /-- The argument sets options, of which the last one may wait for its value. -/
  | option {q : Progress} (hs : Shape.ofArgument a ≠ .plain) (ho : TransGen SetsOption p q)
      (hw : q.awaitsValue = (Shape.ofArgument a).awaits)
      (hc : isCluster a = true → ∃ c x, p.level.lettered? c = some x ∧ x.takesValue = true) :
      Taken p a q
  /-- The argument is the value that an option waits for. -/
  | value {x : Parameter} (hs : Shape.ofArgument a = .plain) (hu : p.unchecked = some (x, none)) :
      Taken p a { p with unchecked := some (x, some a) }
  /-- The argument sets the next parameter by its position. -/
  | position {x : Parameter} {positions : List Parameter} {r : Progress}
      (hs : Shape.ofArgument a = .plain) (hp : p.positions = x :: positions)
      (hr : p.check = .ok r) : Taken p a { r with unchecked := some (x, some a), positions }

/-- A plain argument sets the next parameter by its position, after a check. -/
theorem takePositional_eq_ok (h : p.takePositional a = .ok q) :
    ∃ x positions r, p.positions = x :: positions ∧ p.check = .ok r
      ∧ q = { r with unchecked := some (x, some a), positions } := by
  unfold takePositional at h
  split at h
  · rename_i x positions hp
    obtain ⟨r, hr, h⟩ := bind_eq_ok_iff.1 h
    exact ⟨x, positions, r, hp, hr, (Except.ok.inj h).symm⟩
  · simp at h

/-- Behind `--`, an argument can only set the next parameter by its position. -/
theorem takeBehindDashes_eq_ok (h : p.takeBehindDashes a = .ok q) :
    ∃ x positions r, p.positions = x :: positions ∧ p.check = .ok r
      ∧ q = { r with unchecked := some (x, some a), positions } := by
  unfold takeBehindDashes at h
  split at h
  · simp at h
  · exact takePositional_eq_ok h

/-- Taking an argument that is not two dashes does one of three things. -/
theorem taken_of_take (hd : Shape.ofArgument a ≠ .dashes) (h : p.take a = .ok q) : Taken p a q := by
  unfold take at h
  split at h
  · rename_i name value hs
    obtain ⟨ho, ha⟩ := of_takeNamed h
    exact .option (by simp [hs]) (.single ho) (by rw [ha, hs]) (by simp [isCluster, hs])
  · rename_i cs hs
    obtain ⟨ho, ha, hex⟩ := of_takeLetters (Shape.ofArgument_eq_letters hs).1 h
    refine .option (by simp [hs]) ho (by rw [ha, hs, Shape.awaits]) fun hc => hex ?_
    have hw : (Shape.ofArgument a).awaits = true := Shape.awaits_ofArgument_iff.2 (.inr hc)
    rwa [hs] at hw
  · rename_i hu hn hl
    obtain rfl := Except.ok.inj h
    refine .value ?_ hu
    cases hs : Shape.ofArgument a <;> simp_all
  · -- No option waits, so that a plain argument is for the next position.
    rename_i hn hl hu
    obtain ⟨x, positions, r, hp, hr, rfl⟩ := takePositional_eq_ok h
    refine .position ?_ hp hr
    cases hs : Shape.ofArgument a <;> simp_all

/-! ### Several options at once -/

/-- However many options are set, the level stays. -/
theorem level_eq_of_setsOption (h : TransGen SetsOption p q) : q.level = p.level := by
  induction h with
  | single h => exact h.level_eq
  | tail _ h ih => exact h.level_eq.trans ih

theorem positions_eq_of_setsOption (h : TransGen SetsOption p q) : q.positions = p.positions := by
  induction h with
  | single h => exact h.positions_eq
  | tail _ h ih => exact h.positions_eq.trans ih

/-- The first of several options finds none that waits. -/
theorem not_awaitsValue_of_setsOption (h : TransGen SetsOption p q) : p.awaitsValue = false := by
  cases TransGen.head'_iff.1 h with
  | intro r hr => exact hr.1.not_awaitsValue

/-! ### What has got its value -/

/-- A parameter has got its value, which may still have to be checked. -/
def Sets (p : Progress) (x : Parameter) (value : String) : Prop :=
  p.given.lookup x = some value ∨ p.unchecked = some (x, some value)

variable {value : String}

/-- The first of several values counts. -/
theorem lookup_append_of_eq_some {ps qs : List (Parameter × String)}
    (h : ps.lookup x = some value) : (ps ++ qs).lookup x = some value := by
  rw [List.lookup_append, h]
  rfl

/-- What is not set has no value. -/
theorem lookup_eq_none_of_isSet (h : p.isSet x = false) : p.given.lookup x = none := by
  rw [List.lookup_eq_none_iff]
  intro e he
  have hne : e.1 ≠ x := by
    unfold isSet at h
    rw [List.any_eq_false] at h
    simpa using h e he
  simpa using Ne.symm hne

/-- A check keeps what has got its value, as it refuses to set anything twice. -/
theorem Sets.check (h : p.Sets x value) (hx : x.isRepeatable = false) (hc : p.check = .ok q) :
    q.given.lookup x = some value := by
  unfold Progress.check at hc
  split at hc
  · rename_i hu
    obtain rfl := Except.ok.inj hc
    exact h.resolve_right (by simp [hu])
  · simp at hc
  · rename_i y v hu
    obtain ⟨hset, rfl⟩ := add_eq_ok hc
    rcases h with h | h
    · exact lookup_append_of_eq_some h
    · obtain ⟨rfl, hv⟩ := Prod.mk.inj (Option.some.inj (hu.symm.trans h))
      obtain rfl := Option.some.inj hv
      -- Nothing was set for the parameter before, so that its value is the one that is added.
      have hnot : p.isSet y = false := by
        rw [← Bool.not_eq_true]
        intro hs
        rw [hset hs] at hx
        simp at hx
      show (p.given ++ [(y, v)]).lookup y = some v
      rw [List.lookup_append, lookup_eq_none_of_isSet hnot]
      simp

/-- A parameter that has got its value keeps it while an option is set. -/
theorem Sets.setsOption (h : p.Sets x value) (hx : x.isRepeatable = false) (hq : SetsOption p q) :
    q.Sets x value := by
  cases hq with
  | given _ hr => exact .inl (lookup_append_of_eq_some (h.check hx hr))
  | @waiting y r _ hr =>
    have hl : r.given.lookup x = some value := h.check hx hr
    exact .inl hl

theorem sets_of_setsOption (h : p.Sets x value) (hx : x.isRepeatable = false)
    (hq : TransGen SetsOption p q) : q.Sets x value := by
  induction hq with
  | single hs => exact h.setsOption hx hs
  | tail _ hs ih => exact ih.setsOption hx hs

/-- No argument changes the value of a parameter that is set once only. -/
theorem Taken.sets (hq : Taken p a q) (h : p.Sets x value) (hx : x.isRepeatable = false) :
    q.Sets x value := by
  cases hq with
  | option _ ho _ _ => exact sets_of_setsOption h hx ho
  | value _ hu => exact .inl (h.resolve_right (by simp [hu]))
  | @position y positions r _ _ hr =>
    have hl : r.given.lookup x = some value := h.check hx hr
    exact .inl hl

/-! ### What is set or about to be -/

/-- A parameter is set, or waits for its value or for the check. -/
def Touches (p : Progress) (x : Parameter) : Prop :=
  p.isSet x = true ∨ ∃ value, p.unchecked = some (x, value)

/-- A check sets nothing but what it checks. -/
theorem touches_of_check (hc : p.check = .ok q) (h : q.isSet x = true) : p.Touches x := by
  unfold check at hc
  split at hc
  · obtain rfl := Except.ok.inj hc
    exact .inl h
  · simp at hc
  · rename_i y v hu
    obtain ⟨-, rfl⟩ := add_eq_ok hc
    simp only [isSet, List.any_append, List.any_cons, List.any_nil, Bool.or_false, Bool.or_eq_true,
      decide_eq_true_eq] at h
    rcases h with h | rfl
    · exact .inl h
    · exact .inr ⟨_, hu⟩

/-- An option touches nothing but options. -/
theorem SetsOption.touches (hq : SetsOption p q) (h : q.Touches x) :
    p.Touches x ∨ x ∈ p.level.options := by
  cases hq with
  | @given y v r hy hr =>
    rcases h with h | ⟨v', hv⟩
    · simp only [isSet, List.any_append, List.any_cons, List.any_nil, Bool.or_false, Bool.or_eq_true,
        decide_eq_true_eq] at h
      rcases h with h | rfl
      · exact .inl (touches_of_check hr h)
      · exact .inr hy
    · have hu : r.unchecked = some (x, v') := hv
      simp [(of_check hr).2.2] at hu
  | @waiting y r hy hr =>
    rcases h with h | ⟨v', hv⟩
    · have hset : r.isSet x = true := h
      exact .inl (touches_of_check hr hset)
    · have hxy : y = x := by
        have hv : some (y, none) = some (x, v') := hv
        exact (Prod.mk.inj (Option.some.inj hv)).1
      exact .inr (hxy ▸ hy)

/-- Several options touch no more than those of their level. -/
theorem touches_of_setsOption (hq : TransGen SetsOption p q) (h : q.Touches x) :
    p.Touches x ∨ x ∈ p.level.options := by
  induction hq with
  | single hs => exact hs.touches h
  | tail hp hs ih =>
    rcases hs.touches h with h | h
    · exact ih h
    · exact .inr (level_eq_of_setsOption hp ▸ h)

/-- A value touches nothing but the option that waits for it. -/
theorem touches_of_value {y : Parameter} (hu : p.unchecked = some (y, none))
    (h : Touches { p with unchecked := some (y, some a) } x) : p.Touches x := by
  rcases h with h | ⟨v, hv⟩
  · exact .inl h
  · have hv : some (y, some a) = some (x, v) := hv
    obtain ⟨rfl, -⟩ := Prod.mk.inj (Option.some.inj hv)
    exact .inr ⟨_, hu⟩

end Progress

end PrimaryDex
