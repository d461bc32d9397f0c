import PrimaryDex.Proofs.CommandLine.Taking

namespace PrimaryDex.CommandLine

open Progress

/-!
# What the left out command does not change

* `takeAll_cons` — what the first of several arguments can be: a command, `--`, or one that is taken;
* `firstPlain?_of_takeAll_top` — in front of a command there are only options and their values, which
  are told apart by their spelling alone, so that a command is found where it is read;
* `withBuild_of_parse` — a command line that can be followed is left alone;
* `exists_firstPlain?_of_takeAll_build` — behind the command to build, the first plain argument is no
  command, unless it is the value of several letters at once or stands behind a single dash;
* `parse_withBuild_of_parse_build` — a command line without its command is read as one with it if and
  only if there is a plain argument and the first of them is no command.
-/

variable {p q : Progress} {a : String} {rest : List String} {call : Option Call}

/-! ### One argument and the others -/

/-- The first of several arguments is a command, or `--`, or is taken. -/
theorem takeAll_cons (h : takeAll p (a :: rest) = .ok (q, call)) :
    (p.awaitsValue = false ∧ a ∈ p.level.commands ∧ q = p ∧ call = some (a, rest))
      ∨ (a = "--" ∧ rest.foldlM takeBehindDashes p = .ok q ∧ call = none)
      ∨ (a ≠ "--" ∧ ∃ r, Taken p a r ∧ takeAll r rest = .ok (q, call)) := by
  unfold takeAll at h
  split at h
  · rename_i hc
    obtain ⟨rfl, rfl⟩ := Prod.mk.inj (Except.ok.inj h)
    exact .inl (by simpa using hc)
  · split at h
    · rename_i hd
      split at h
      · rename_i r hr
        obtain ⟨rfl, rfl⟩ := Prod.mk.inj (Except.ok.inj h)
        exact .inr (.inl ⟨Shape.ofArgument_eq_dashes_iff.1 hd, hr, rfl⟩)
      · simp at h
    · rename_i hd
      split at h
      · rename_i r hr
        exact .inr (.inr ⟨mt Shape.ofArgument_eq_dashes_iff.2 hd, r, taken_of_take hd hr, h⟩)
      · simp at h

/-- What does not look like an option is a plain argument. -/
theorem firstPlain?_cons_of_not_isOption (h : isOption a = false) :
    firstPlain? (a :: rest) = some a := by
  have hd : a ≠ "--" := by
    rintro rfl
    simp [isOption] at h
  have hv : a ∉ optionsWithValue := by
    intro hm
    have hall : ∀ b ∈ optionsWithValue, isOption b = true := by decide
    rw [hall a hm] at h
    simp at h
  unfold firstPlain?
  rw [if_neg hd, if_neg hv, if_neg (by simp [h])]

/-- Behind an option of the list, the next argument is skipped as well. -/
theorem firstPlain?_cons_of_mem {v : String} (hd : a ≠ "--") (hv : a ∈ optionsWithValue) :
    firstPlain? (a :: v :: rest) = firstPlain? rest := by
  rw [firstPlain?, if_neg hd, if_pos hv]

theorem firstPlain?_cons_of_isOption (hd : a ≠ "--") (hv : a ∉ optionsWithValue)
    (h : isOption a = true) : firstPlain? (a :: rest) = firstPlain? rest := by
  rw [firstPlain?.eq_def]
  show (if a = "--" then _ else _) = _
  rw [if_neg hd, if_neg hv, if_pos h]

/-- No command has the form of an option. -/
theorem isOption_of_mem_commands {l : Level} (h : a ∈ l.commands) : isOption a = false := by
  have hall : ∀ b ∈ Level.top.commands, isOption b = false := by decide
  cases l with
  | top => exact hall a h
  | build | list => simp [Level.commands] at h

/-- Behind `--` nothing is taken for an option that still waits for its value. -/
theorem eq_of_foldlM_takeBehindDashes (hw : p.awaitsValue = true)
    (h : rest.foldlM takeBehindDashes p = .ok q) : q = p := by
  cases rest with
  | nil => exact (Except.ok.inj h).symm
  | cons b rest =>
    obtain ⟨r, hr, -⟩ := bind_eq_ok_iff.1 h
    obtain ⟨-, -, s, -, hs, -⟩ := takeBehindDashes_eq_ok hr
    rw [awaitsValue_of_check hs] at hw
    simp at hw

/-- Where a value is awaited, the next argument is that value, or is `--` and leaves the option
    without one. -/
theorem takeAll_cons_of_awaitsValue (hw : p.awaitsValue = true)
    (h : takeAll p (a :: rest) = .ok (q, call)) :
    (q = p ∧ call = none)
      ∨ ∃ x, Shape.ofArgument a = .plain ∧ p.unchecked = some (x, none)
        ∧ takeAll { p with unchecked := some (x, some a) } rest = .ok (q, call) := by
  obtain ⟨hn, -, -⟩ | ⟨-, hq, hc⟩ | ⟨-, r, hr, h⟩ := takeAll_cons h
  · simp [hw] at hn
  · exact .inl ⟨eq_of_foldlM_takeBehindDashes hw hq, hc⟩
  · cases hr with
    | option _ ho _ _ => simp [not_awaitsValue_of_setsOption ho] at hw
    | @value x hs hu => exact .inr ⟨x, hs, hu, h⟩
    | position _ _ hr => simp [awaitsValue_of_check hr] at hw

/-- Whether an argument that was taken waits for a value is told by its shape alone. -/
theorem awaitsValue_of_taken (h : Taken p a q) : q.awaitsValue = (Shape.ofArgument a).awaits := by
  cases h with
  | option _ _ hw _ => exact hw
  | value hs _ => rw [hs]; rfl
  | position hs _ _ => rw [hs]; rfl

/-- No argument that is taken changes the level. -/
theorem level_eq_of_taken (h : Taken p a q) : q.level = p.level := by
  cases h with
  | option _ ho _ _ => exact level_eq_of_setsOption ho
  | value _ _ => rfl
  | position _ _ hr => exact (of_check hr).1

/-- Without positions there are none to come. -/
theorem positions_eq_nil_of_taken (hp : p.positions = []) (h : Taken p a q) : q.positions = [] := by
  cases h with
  | option _ ho _ _ => exact (positions_eq_of_setsOption ho).trans hp
  | value _ _ => exact hp
  | position _ hpos _ => simp [hp] at hpos

/-! ### The first plain argument in front of a command -/

/-- In front of a command there are options and values only, and no letter of an option takes a value:
    an option that waits for one is in the list of those. -/
theorem taken_of_top (hl : p.level = .top) (hp : p.positions = []) (hw : p.awaitsValue = false)
    (h : Taken p a q) :
    Shape.ofArgument a ≠ .plain ∧ q.awaitsValue = decide (a ∈ optionsWithValue) := by
  cases h with
  | option hs ho hw' hc =>
    -- The options in front of a command that take a value have no letter, so that no cluster can
    -- end in one.
    have hcluster : isCluster a ≠ true := by
      intro hcluster
      obtain ⟨c, x, hx, hv⟩ := hc hcluster
      rw [hl] at hx
      have hnone : ∀ y ∈ Level.top.options, y.takesValue = true → y.letter? = none := by decide
      have hletter : x.letter? = some c := by simpa using List.find?_some hx
      rw [hnone x (List.mem_of_find?_eq_some hx) hv] at hletter
      simp at hletter
    refine ⟨hs, ?_⟩
    rw [hw', Bool.eq_iff_iff, Shape.awaits_ofArgument_iff, decide_eq_true_eq]
    exact or_iff_left hcluster
  | value _ hu => simp [awaitsValue, hu] at hw
  | position _ hpos _ => simp [hp] at hpos

/-- In front of a command there are only options and their values: it is the first plain argument. -/
theorem firstPlain?_of_takeAll_top {p : Progress} {arguments : List String} {c : String}
    (hl : p.level = .top) (hp : p.positions = []) (hw : p.awaitsValue = false)
    (h : takeAll p arguments = .ok (q, some (c, rest))) :
    c ∈ Level.top.commands ∧ firstPlain? arguments = some c := by
  -- By recursion on the arguments, two at a time where an option takes the next one.
  match arguments with
  | [] => simp [takeAll] at h
  | b :: others =>
    obtain ⟨-, hc, -, hcall⟩ | ⟨-, -, hcall⟩ | ⟨hd, r, hr, h⟩ := takeAll_cons h
    · obtain ⟨rfl, -⟩ := Prod.mk.inj (Option.some.inj hcall)
      rw [hl] at hc
      exact ⟨hc, firstPlain?_cons_of_not_isOption (isOption_of_mem_commands hc)⟩
    · simp at hcall
    · obtain ⟨hs, hw'⟩ := taken_of_top hl hp hw hr
      have hl' : r.level = .top := (level_eq_of_taken hr).trans hl
      have hp' : r.positions = [] := positions_eq_nil_of_taken hp hr
      by_cases hv : b ∈ optionsWithValue
      · -- The next argument is the value, for the parser as for the scanner.
        match others with
        | [] => simp [takeAll] at h
        | v :: others =>
          obtain ⟨-, hcall⟩ | ⟨x, -, -, h⟩ := takeAll_cons_of_awaitsValue (by simp [hw', hv]) h
          · simp at hcall
          · rw [firstPlain?_cons_of_mem hd hv]
            exact firstPlain?_of_takeAll_top (p := { r with unchecked := some (x, some v) }) hl' hp'
              rfl h
      · rw [firstPlain?_cons_of_isOption hd hv (Shape.isOption_of_ofArgument hs)]
        exact firstPlain?_of_takeAll_top hl' hp' (by simp [hw', hv]) h

/-- A command line that is accepted as it stands is left alone. -/
theorem withBuild_of_parse {arguments : List String} {l : CommandLine}
    (h : parse arguments = .ok l) :
    withBuild arguments = arguments ∧ parse (withBuild arguments) = .ok l := by
  have heq : withBuild arguments = arguments := by
    obtain ⟨⟨outer, call⟩, ha, h⟩ := bind_eq_ok_iff.1 h
    match call with
    | none => simp [throw, throwThe, MonadExceptOf.throw] at h
    | some (c, others) =>
      obtain ⟨hc, hf⟩ := firstPlain?_of_takeAll_top rfl rfl rfl ha
      simp only [withBuild, hf]
      exact if_pos hc
  exact ⟨heq, by rw [heq]; exact h⟩

/-- Values may be named like commands, in any spelling of the options. -/
theorem withBuild_valuesNamedLikeCommands :
    parse ["--config", "build", "build", "-vo", "list", "help"]
        = .ok ⟨.build ⟨some "help", none, [], none, none, some "list"⟩, some "build", true, false⟩
      ∧ withBuild ["--config", "build", "build", "-vo", "list", "help"]
        = ["--config", "build", "build", "-vo", "list", "help"] := by
  have h : parse ["--config", "build", "build", "-vo", "list", "help"]
      = .ok ⟨.build ⟨some "help", none, [], none, none, some "list"⟩, some "build", true, false⟩ := by
    rfl
  exact ⟨h, (withBuild_of_parse h).1⟩

/-! ### The positions of a build -/

variable {x : Parameter} {value : String}

/-- What has got its value keeps it behind `--`. -/
theorem sets_of_foldlM_takeBehindDashes (hx : x.isRepeatable = false) (hs : p.Sets x value)
    (h : rest.foldlM takeBehindDashes p = .ok q) : q.Sets x value := by
  induction rest generalizing p with
  | nil =>
    obtain rfl := Except.ok.inj h
    exact hs
  | cons b rest ih =>
    obtain ⟨r, hr, h⟩ := bind_eq_ok_iff.1 h
    obtain ⟨y, positions, s, -, hc, rfl⟩ := takeBehindDashes_eq_ok hr
    have hl : s.given.lookup x = some value := hs.check hx hc
    refine ih ?_ h
    exact .inl hl

/-- What has got its value keeps it while the other arguments are taken. -/
theorem sets_of_takeAll (hx : x.isRepeatable = false) (hs : p.Sets x value)
    (h : takeAll p rest = .ok (q, call)) : q.Sets x value := by
  induction rest generalizing p with
  | nil =>
    obtain ⟨rfl, -⟩ := Prod.mk.inj (Except.ok.inj h)
    exact hs
  | cons b rest ih =>
    obtain ⟨-, -, rfl, -⟩ | ⟨-, h, -⟩ | ⟨-, r, hr, h⟩ := takeAll_cons h
    · exact hs
    · exact sets_of_foldlM_takeBehindDashes hx hs h
    · exact ih (hr.sets hs hx) h

/-- Nothing has been set by its position, and nothing is about to. -/
structure AtFront (p : Progress) : Prop where
  level : p.level = .build
  positions : p.positions = [.roots, .classPath]
  untouched : ¬p.Touches .roots

/-- Nothing is set at the start of a build. -/
theorem atFront_start : AtFront (.start .build) :=
  ⟨rfl, rfl, by simp [Touches, Progress.start, isSet]⟩

/-- A value for an option sets no position. -/
theorem AtFront.of_value (hf : AtFront p) (hu : p.unchecked = some (x, none)) :
    AtFront { p with unchecked := some (x, some a) } :=
  ⟨hf.level, hf.positions, mt (touches_of_value hu) hf.untouched⟩

/-- An argument is an option, or the value that one waits for, or sets the roots. -/
theorem AtFront.of_taken (hf : AtFront p) (h : Taken p a q) :
    (Shape.ofArgument a ≠ .plain ∧ p.awaitsValue = false ∧ AtFront q)
      ∨ (Shape.ofArgument a = .plain ∧ p.awaitsValue = true ∧ AtFront q)
      ∨ (Shape.ofArgument a = .plain ∧ p.awaitsValue = false ∧ q.Sets .roots a) := by
  cases h with
  | option hs ho _ _ =>
    refine .inl ⟨hs, not_awaitsValue_of_setsOption ho, (level_eq_of_setsOption ho).trans hf.level,
      (positions_eq_of_setsOption ho).trans hf.positions, ?_⟩
    intro ht
    rcases touches_of_setsOption ho ht with ht | hm
    · exact hf.untouched ht
    · rw [hf.level] at hm
      revert hm
      decide
  | value hs hu => exact .inr (.inl ⟨hs, by simp [awaitsValue, hu], hf.of_value hu⟩)
  | position hs hp hr =>
    rw [hf.positions] at hp
    obtain ⟨rfl, -⟩ := List.cons.inj hp
    exact .inr (.inr ⟨hs, awaitsValue_of_check hr, .inr rfl⟩)

/-- Without a position, a build has no roots. -/
theorem AtFront.value?_eq_none (hf : AtFront p) (h : p.check = .ok q) : q.value? .roots = none := by
  refine lookup_eq_none_of_isSet ?_
  rw [← Bool.not_eq_true]
  exact mt (touches_of_check h) hf.untouched

/-- The roots of a build are what sets them, whatever else is taken behind it. -/
theorem eq_of_sets_roots {r : String} {q' : Progress} (hs : q.Sets .roots value)
    (hq : q.check = .ok q') (hr : q'.value? .roots = some r) : r = value := by
  have hl : q'.given.lookup .roots = some value := hs.check rfl hq
  exact Option.some.inj (hr.symm.trans hl)

/-- Behind `--` the first argument is the roots. -/
theorem AtFront.head?_eq {r : String} {q' : Progress} (hf : AtFront p)
    (h : rest.foldlM takeBehindDashes p = .ok q) (hq : q.check = .ok q')
    (hr : q'.value? .roots = some r) : rest.head? = some r := by
  cases rest with
  | nil =>
    obtain rfl := Except.ok.inj h
    simp [hf.value?_eq_none hq] at hr
  | cons w others =>
    obtain ⟨s, hs, hfold⟩ := bind_eq_ok_iff.1 h
    obtain ⟨x, positions, s', hp, -, rfl⟩ := takeBehindDashes_eq_ok hs
    rw [hf.positions] at hp
    obtain ⟨rfl, -⟩ := List.cons.inj hp
    -- The first argument behind the dashes takes the first position, and nothing changes it later.
    obtain rfl := eq_of_sets_roots (sets_of_foldlM_takeBehindDashes rfl (.inr rfl) hfold) hq hr
    rfl

/-! ### The first plain argument behind the command to build -/

/-- Arguments whose spelling tells where the roots are: up to `--` they are no single dash, and no
    command stands behind several letters of which the last one waits for a value. -/
structure Legible (roots : String) (arguments : List String) : Prop where
  dash : roots = "-" → "-" ∉ arguments.takeWhile (· ≠ "--")
  cluster : ∀ a w, [a, w] <:+: arguments.takeWhile (· ≠ "--") → isCluster a = true →
    w ∉ Level.top.commands

section

variable {r : String}

/-- The arguments in front of `--` start with the first one, unless it is `--` itself. -/
theorem takeWhile_cons_of_ne (hd : a ≠ "--") :
    (a :: rest).takeWhile (· ≠ "--") = a :: rest.takeWhile (· ≠ "--") := by
  rw [List.takeWhile_cons_of_pos]
  simpa using hd

/-- The roots are as legible in the rest of the arguments. -/
theorem Legible.tail (h : Legible r (a :: rest)) (hd : a ≠ "--") : Legible r rest := by
  obtain ⟨hdash, hcluster⟩ := h
  rw [takeWhile_cons_of_ne hd] at hdash hcluster
  constructor
  · intro hr hm
    exact hdash hr (List.mem_cons_of_mem a hm)
  · intro b w hb
    exact hcluster b w (hb.trans (List.suffix_cons a _).isInfix)

/-- The roots do not look like an option. -/
theorem Legible.not_isOption (h : Legible a (a :: rest)) (hs : Shape.ofArgument a = .plain)
    (hd : a ≠ "--") : isOption a = false := by
  rw [← Bool.not_eq_true]
  intro ho
  have hm : a ∈ (a :: rest).takeWhile (· ≠ "--") := by
    rw [takeWhile_cons_of_ne hd]
    exact List.mem_cons_self
  obtain rfl := Shape.eq_dash_of_plain hs ho
  exact h.dash rfl hm

/-- What stands behind a cluster is no command. -/
theorem Legible.not_mem_commands {w : String} (h : Legible r (a :: w :: rest)) (hd : a ≠ "--")
    (hc : isCluster a = true) : w ∉ Level.top.commands := by
  by_cases hw : w = "--"
  · rw [hw]
    decide
  · refine h.cluster a w ?_ hc
    rw [takeWhile_cons_of_ne hd, takeWhile_cons_of_ne hw]
    exact (List.prefix_append [a, w] _).isInfix

/-- Behind the command to build, the first plain argument is no command: it is the roots, or the value
    of a cluster. -/
theorem exists_firstPlain?_of_takeAll_build {p : Progress} {arguments : List String}
    {q' : Progress} (hf : AtFront p) (h : takeAll p arguments = .ok (q, call))
    (hq : q.check = .ok q') (hr : q'.value? .roots = some r) (hc : r ∉ Level.top.commands)
    (hnext : p.awaitsValue = true → ∀ a ∈ arguments.head?, a ∉ Level.top.commands)
    (hleg : Legible r arguments) :
    ∃ a, firstPlain? arguments = some a ∧ a ∉ Level.top.commands := by
  match arguments with
  | [] =>
    obtain ⟨rfl, -⟩ := Prod.mk.inj (Except.ok.inj h)
    simp [hf.value?_eq_none hq] at hr
  | b :: others =>
    obtain ⟨-, hb, -⟩ | ⟨rfl, hfold, -⟩ | ⟨hd, s, hs, hrest⟩ := takeAll_cons h
    · simp [hf.level, Level.commands] at hb
    · have hhead := hf.head?_eq hfold hq hr
      exact ⟨r, by rw [firstPlain?.eq_def]; exact hhead, hc⟩
    · have hws := awaitsValue_of_taken hs
      obtain ⟨hb, -, hfs⟩ | ⟨hb, hw, hfs⟩ | ⟨hb, -, hsets⟩ := hf.of_taken hs
      · by_cases hv : b ∈ optionsWithValue
        · -- The value of the option is next, for the parser as for the scanner.
          rw [Shape.awaits_ofArgument_iff.2 (.inl hv)] at hws
          match others with
          | [] =>
            obtain ⟨rfl, -⟩ := Prod.mk.inj (Except.ok.inj hrest)
            simp [hfs.value?_eq_none hq] at hr
          | v :: others =>
            obtain ⟨rfl, -⟩ | ⟨x, hplain, hu, hvalue⟩ := takeAll_cons_of_awaitsValue hws hrest
            · simp [awaitsValue_of_check hq] at hws
            · have hdv : v ≠ "--" := by
                intro hdv
                rw [Shape.ofArgument_eq_dashes_iff.2 hdv] at hplain
                simp at hplain
              rw [firstPlain?_cons_of_mem hd hv]
              exact exists_firstPlain?_of_takeAll_build (hfs.of_value hu) hvalue hq hr hc
                (by simp [awaitsValue]) ((hleg.tail hd).tail hdv)
        · rw [firstPlain?_cons_of_isOption hd hv (Shape.isOption_of_ofArgument hb)]
          refine exists_firstPlain?_of_takeAll_build hfs hrest hq hr hc ?_ (hleg.tail hd)
          intro hw w hhead
          rw [hws, Shape.awaits_ofArgument_iff] at hw
          obtain ⟨others, rfl⟩ := List.head?_eq_some_iff.1 hhead
          exact hleg.not_mem_commands hd (hw.resolve_left hv)
      · by_cases ho : isOption b = true
        · -- A single dash is passed over as if it were an option.
          obtain rfl := Shape.eq_dash_of_plain hb ho
          rw [firstPlain?_cons_of_isOption hd (by decide) ho]
          exact exists_firstPlain?_of_takeAll_build hfs hrest hq hr hc (by simp [hws, hb, Shape.awaits])
            (hleg.tail hd)
        · exact ⟨b, firstPlain?_cons_of_not_isOption (by simpa using ho), hnext hw b rfl⟩
      · obtain rfl := eq_of_sets_roots (sets_of_takeAll rfl hsets hrest) hq hr
        exact ⟨r, firstPlain?_cons_of_not_isOption (hleg.not_isOption hb hd), hc⟩

end

/-! ### With and without the command -/

/-- Where a command is read before any command, it is taken for the roots behind the command to
    build: both levels tell options and values apart alike. -/
theorem sets_roots_of_takeAll_top {p p' q' : Progress} {arguments : List String} {c : String}
    {call' : Option Call} (hl : p.level = .top) (hp : p.positions = []) (hf : AtFront p')
    (hw : p'.awaitsValue = p.awaitsValue) (h : takeAll p arguments = .ok (q, some (c, rest)))
    (h' : takeAll p' arguments = .ok (q', call')) :
    c ∈ Level.top.commands ∧ q'.Sets .roots c := by
  -- Both levels take the same arguments side by side, up to the command of the one.
  match arguments with
  | [] => simp [takeAll] at h
  | b :: others =>
    obtain ⟨-, hb', -⟩ | ⟨hd', -, -⟩ | ⟨hd', s', hs', hrest'⟩ := takeAll_cons h'
    · simp [hf.level, Level.commands] at hb'
    · rw [hd'] at h
      obtain ⟨-, hb, -⟩ | ⟨-, -, hcall⟩ | ⟨hd, -⟩ := takeAll_cons h
      · rw [hl] at hb
        exact absurd hb (by decide)
      · simp at hcall
      · exact absurd rfl hd
    · have hcases := hf.of_taken hs'
      obtain ⟨hwp, hb, -, hcall⟩ | ⟨hd, -, -⟩ | ⟨-, s, hs, hrest⟩ := takeAll_cons h
      · obtain ⟨rfl, -⟩ := Prod.mk.inj (Option.some.inj hcall)
        rw [hl] at hb
        obtain ⟨hne, -⟩ | ⟨-, hw', -⟩ | ⟨-, -, hsets⟩ := hcases
        · have ho := Shape.isOption_of_ofArgument hne
          simp [isOption_of_mem_commands hb] at ho
        · simp [hw, hwp] at hw'
        · exact ⟨hb, sets_of_takeAll rfl hsets hrest'⟩
      · exact absurd hd hd'
      · have hw' : s'.awaitsValue = s.awaitsValue := by
          rw [awaitsValue_of_taken hs', awaitsValue_of_taken hs]
        have hf' : AtFront s' := by
          obtain ⟨-, -, hf'⟩ | ⟨-, -, hf'⟩ | ⟨hplain, hwp, -⟩ := hcases
          · exact hf'
          · exact hf'
          · exact absurd hplain (taken_of_top hl hp (hw.symm.trans hwp) hs).1
        exact sets_roots_of_takeAll_top ((level_eq_of_taken hs).trans hl)
          (positions_eq_nil_of_taken hp hs) hf' hw' hrest hrest'

/-- What is read behind the command to build. -/
theorem exists_of_parse_build {arguments : List String} {l : CommandLine}
    (h : parse ("build" :: arguments) = .ok l) :
    ∃ p q call, takeAll (.start .build) arguments = .ok (p, call) ∧ p.check = .ok q
      ∧ l.command = .build (buildOptions q) := by
  obtain ⟨⟨outer, call⟩, hc, h⟩ := bind_eq_ok_iff.1 h
  obtain ⟨rfl, rfl⟩ := Prod.mk.inj (Except.ok.inj hc)
  obtain ⟨⟨inner, command⟩, hi, h⟩ := bind_eq_ok_iff.1 h
  obtain ⟨q, hq, hi⟩ := bind_eq_ok_iff.1 hi
  obtain ⟨rfl, rfl⟩ := Prod.mk.inj (Except.ok.inj hi)
  obtain ⟨outer', -, h⟩ := bind_eq_ok_iff.1 h
  obtain rfl := Except.ok.inj h
  obtain ⟨⟨p, call⟩, hp, hq⟩ := bind_eq_ok_iff.1 hq
  obtain ⟨q', hq', hq⟩ := bind_eq_ok_iff.1 hq
  obtain ⟨-, -, hq⟩ := bind_eq_ok_iff.1 hq
  obtain rfl := Except.ok.inj hq
  exact ⟨p, q', call, hp, hq', rfl⟩

/-- A build with roots that are no command is read in the same way without its command, or not at all:
    it is read exactly if there is a first plain argument that is no command. So it is where the roots
    are legible. -/
theorem parse_withBuild_of_parse_build {arguments : List String} {l : CommandLine}
    {o : BuildOptions} {r : String} (h : parse ("build" :: arguments) = .ok l)
    (hl : l.command = .build o) (hr : o.roots = some r) (hc : r ∉ Level.top.commands) :
    (∀ l', parse (withBuild arguments) = .ok l' → l' = l)
      ∧ (parse (withBuild arguments) = .ok l
          ↔ ∃ a, firstPlain? arguments = some a ∧ a ∉ Level.top.commands)
      ∧ (Legible r arguments → parse (withBuild arguments) = .ok l) := by
  obtain ⟨p, q, call, hp, hq, hcommand⟩ := exists_of_parse_build h
  obtain rfl := Command.build.inj (hl.symm.trans hcommand)
  -- With the command put in, the command line is the one that is read.
  have hput : (∃ a, firstPlain? arguments = some a ∧ a ∉ Level.top.commands) →
      parse (withBuild arguments) = .ok l := by
    rintro ⟨a, ha, hac⟩
    simp only [withBuild, ha]
    rw [if_neg hac]
    exact h
  -- As it stands, it is not read: the command in it would be the roots.
  have hnot : ∀ l', parse arguments ≠ .ok l' := by
    intro l' h'
    obtain ⟨⟨outer, call'⟩, ha, h'⟩ := bind_eq_ok_iff.1 h'
    match call' with
    | none => simp [throw, throwThe, MonadExceptOf.throw] at h'
    | some (c, others) =>
      obtain ⟨hcc, hsets⟩ := sets_roots_of_takeAll_top (p := .start .top) rfl rfl atFront_start
        rfl ha hp
      rw [eq_of_sets_roots hsets hq hr] at hc
      exact hc hcc
  have hiff : ∀ l', parse (withBuild arguments) = .ok l' →
      ∃ a, firstPlain? arguments = some a ∧ a ∉ Level.top.commands := by
    intro l' h'
    unfold withBuild at h'
    split at h'
    · rename_i a ha
      split at h'
      · exact absurd h' (hnot l')
      · rename_i hac
        exact ⟨a, ha, hac⟩
    · exact absurd h' (hnot l')
  refine ⟨fun l' h' => ?_, ⟨hiff l, hput⟩, fun hleg => hput ?_⟩
  · exact Except.ok.inj (h'.symm.trans (hput (hiff l' h')))
  · exact exists_firstPlain?_of_takeAll_build atFront_start hp hq hr hc
      (by simp [awaitsValue, Progress.start]) hleg

/-- Several letters hide the value behind them from the scanner, as long as it is no command. -/
theorem parse_withBuild_cluster :
    parse ("build" :: ["-vo", "x", "r", "list"])
        = .ok ⟨.build ⟨some "r", some "list", [], none, none, some "x"⟩, none, true, false⟩
      ∧ parse (withBuild ["-vo", "x", "r", "list"])
        = .ok ⟨.build ⟨some "r", some "list", [], none, none, some "x"⟩, none, true, false⟩ := by
  have h : parse ("build" :: ["-vo", "x", "r", "list"])
      = .ok ⟨.build ⟨some "r", some "list", [], none, none, some "x"⟩, none, true, false⟩ := by rfl
  exact ⟨h, (parse_withBuild_of_parse_build h rfl rfl (by decide)).2.1.2 ⟨"x", rfl, by decide⟩⟩

/-- The value of the last of several letters is taken for a command, and a single dash for an option. -/
theorem parse_withBuild_hiddenRoots :
    (parse ("build" :: ["-vo", "list", "r"])
        = .ok ⟨.build ⟨some "r", none, [], none, none, some "list"⟩, none, true, false⟩
      ∧ "r" ∉ Level.top.commands
      ∧ parse (withBuild ["-vo", "list", "r"]) = .error .unknownArgument)
    ∧ parse ("build" :: ["-"])
        = .ok ⟨.build ⟨some "-", none, [], none, none, none⟩, none, false, false⟩
      ∧ "-" ∉ Level.top.commands
      ∧ parse (withBuild ["-"]) = .error .unknownCommand := by
  exact ⟨⟨rfl, by decide, rfl⟩, rfl, by decide, rfl⟩

end PrimaryDex.CommandLine
