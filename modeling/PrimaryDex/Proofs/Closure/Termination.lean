import Mathlib.Logic.Function.Iterate
import Mathlib.Tactic.Ring
import PrimaryDex.Closure.Basic

namespace PrimaryDex

/-!
# How long a pass takes

A pass is one loop within another: over the pending classes, and for each of them over the stack that
leads up from it. Both can grow in a turn: what is missing is queued again each time it is mentioned,
and an ancestor may lead back to itself. But they only grow where a name is seen for the first time, and
there are finitely many of those, each of which adds finitely many others.

* `Moment` — a point between two turns of one of the loops, and `Moment.turn`, a single turn;
* `Moment.result_turn` — turns lead to what the pass comes to;
* `Moment.cost` — turns that may still follow; `cost_turn_lt` says that each turn takes off one;
* `Moment.exists_iterate_turn` — so the pass ends, within that many turns;
* `ClassPath.exists_iterate_turn_pass` — for a class path the bound depends on nothing but how much
  its files mention and how many roots there are.
-/

/-! ### How many names there are -/

/-- A list has room for a source: each class mentions only names of the list, and no more of them than
    the list is long. -/
structure ClassSource.Within (source : ClassSource) (names : List ClassName) : Prop where
  mentions_subset : ∀ {n c}, source.find n = .ok c → c.mentions ⊆ names
  length_mentions_le : ∀ {n c}, source.find n = .ok c → c.mentions.length ≤ names.length

/-- The names that a class path can mention have room for it. -/
theorem ClassPath.source_within (fs : FileSystem) (cp : ClassPath) :
    (cp.source fs).Within (cp.mentioned fs) where
  mentions_subset := mentions_subset_mentioned
  length_mentions_le := by
    intro n c h
    obtain ⟨content, hm, hd⟩ := exists_content_of_loadFrom h
    rw [mentionsOf_decodeFile hd, mentioned, List.flatMap_def]
    exact (List.sublist_flatten_of_mem (List.mem_map_of_mem hm)).length_le

namespace ClassSource.Within

variable {source : ClassSource} {names : List ClassName} {n : ClassName} {c : ClassFile}

/-- The ancestors of a class are names of the list. -/
theorem ancestors_subset (h : source.Within names) (hc : source.find n = .ok c) :
    c.ancestors ⊆ names :=
  fun _ hm => h.mentions_subset hc (ClassHeader.ancestors_subset_mentions _ hm)

/-- A class has no more ancestors than the list has names. -/
theorem length_ancestors_le (h : source.Within names) (hc : source.find n = .ok c) :
    c.ancestors.length ≤ names.length := by
  have hl := h.length_mentions_le hc
  rw [ClassHeader.mentions, List.length_append] at hl
  omega

/-- The references of a class are names of the list. -/
theorem referenced_subset (h : source.Within names) (hc : source.find n = .ok c)
    {ns : List ClassName} (hr : c.referenced = .ok ns) : ns ⊆ names := by
  have hsub := ClassHeader.references_subset_mentions (ClassFile.references_of_referenced hr)
  exact fun _ hm => h.mentions_subset hc (hsub hm)

/-- A class has no more references than the list has names. -/
theorem length_referenced_le (h : source.Within names) (hc : source.find n = .ok c)
    {ns : List ClassName} (hr : c.referenced = .ok ns) : ns.length ≤ names.length := by
  have hl := h.length_mentions_le hc
  rw [ClassHeader.mentions_eq (ClassFile.references_of_referenced hr), List.length_append] at hl
  omega

end ClassSource.Within

namespace Pass

variable {source : ClassSource}

/-! ### What lies ahead of a pass -/

/-- What lies ahead of a pass. A name that is not resolved weighs as much as all that can happen when
    it is. -/
def ahead (names : List ClassName) (p : Pass source) : Nat :=
  remaining names p.isResolved p.pending.toList * (names.length + 2) ^ 2 + p.pending.toList.length

variable {names : List ClassName} {p q : Pass source} {n : ClassName}

/-- Keeping a class brings a pass nothing. -/
theorem ahead_keep (c : ClassFile) (hc : source.find n = .ok c) :
    (p.keep n c hc).ahead names = p.ahead names := rfl

/-- Looking a class up brings a pass nothing, whatever it comes to. -/
theorem ahead_of_lookUp {found : Option (Found source n)} (h : p.lookUp n = .ok (q, found)) :
    q.ahead names = p.ahead names := by
  rw [ahead, ahead, pending_of_lookUp h, funext (isResolved_of_lookUp h)]

/-- A promoted class is at most one more to be taken. -/
theorem ahead_promote_le (p : Pass source) (hn : n ∈ names) :
    (p.promote n).ahead names ≤ p.ahead names + 1 := by
  have hlen : (p.promote n).pending.toList.length ≤ p.pending.toList.length + 1 := by
    rw [pending_promote, List.length_cons]
    split
    · have := List.length_erase_le (a := n) (l := p.pending.toList)
      omega
    · exact Nat.le_refl _
  -- Nothing remains to be resolved that did not before.
  rw [ahead, ahead, remaining, outside_promote p hn, funext (isResolved_promote p n)]
  unfold remaining
  omega

/-- Each class that is enqueued makes the queue longer by one at most. -/
theorem length_pending_foldl_enqueue_le (p : Pass source) (ns : List ClassName) :
    (ns.foldl enqueue p).pending.toList.length ≤ p.pending.toList.length + ns.length := by
  induction ns generalizing p with
  | nil => exact Nat.le_refl _
  | cons n ns ih =>
    have h := ih (p.enqueue n)
    have hn : (p.enqueue n).pending.toList.length ≤ p.pending.toList.length + 1 := by
      rw [pending_enqueue]
      split <;> simp
    rw [List.foldl_cons, List.length_cons]
    omega

/-- Each class that is enqueued is at most one more to be taken. -/
theorem ahead_foldl_enqueue_le (p : Pass source) {ns : List ClassName} (hns : ns ⊆ names) :
    (ns.foldl enqueue p).ahead names ≤ p.ahead names + ns.length := by
  have hlen := length_pending_foldl_enqueue_le p ns
  rw [ahead, ahead, remaining, outside_foldl_enqueue p hns, funext (isResolved_foldl_enqueue p ns)]
  unfold remaining
  omega

/-- A pending class that is dropped was one turn. -/
theorem ahead_lt_of_pop? (h : p.pop? = some (n, q)) : q.ahead names < p.ahead names := by
  have hle := Nat.mul_le_mul_right ((names.length + 2) ^ 2)
    (remaining_le names p.isResolved n q.pending.toList)
  rw [ahead, ahead, pending_of_pop? h, funext (isResolved_of_pop? h), List.length_cons]
  omega

/-- A pending class that gets resolved sets all its weight free. -/
theorem ahead_resolve_lt {r : Pass source} {found : Option (Found source n)}
    (hp : p.pop? = some (n, q)) (hn : q.isResolved n = false) (hl : q.lookUp n = .ok (r, found)) :
    (r.resolve n).ahead names + (names.length + 2) ^ 2 < p.ahead names := by
  have hr : r.isResolved = p.isResolved :=
    funext fun m => (isResolved_of_lookUp hl m).trans (isResolved_of_pop? hp m)
  have hlt : remaining names (r.resolve n).isResolved q.pending.toList
      < remaining names p.isResolved (n :: q.pending.toList) :=
    remaining_lt (isResolved_of_pop? hp n ▸ hn) (hr ▸ isResolved_resolve r n) rfl
  have hle := Nat.mul_le_mul_right ((names.length + 2) ^ 2) hlt
  rw [Nat.succ_mul] at hle
  rw [ahead, ahead, pending_resolve, pending_of_lookUp hl, pending_of_pop? hp, List.length_cons]
  omega

/-! ### One turn -/

/-- A point between two turns of a pass. -/
inductive Moment (source : ClassSource) where
  /-- The next pending class is about to be taken. -/
  | popping (p : Pass source)
  /-- A class was resolved, and what is left on the stack leads up from it. -/
  | ascending (n : ClassName) (c : ClassFile) (hc : source.find n = .ok c) (p : Pass source)
      (visited : Std.HashSet ClassName) (stack : List (Visit source))
  | ended (result : Except Failure (Pass source))

namespace Moment

/-- A turn of one of the two loops. -/
def turn (roots : Std.HashSet ClassName) : Moment source → Moment source
  | popping p =>
    match p.pop? with
    | none => ended (.ok p)
    | some (n, q) =>
      if q.isResolved n then popping q
      else match q.lookUp n with
        | .error failure => ended (.error failure)
        | .ok (q', none) =>
          if roots.contains n then ended (.error ⟨.missingRoot n, q'.asked⟩) else popping q'
        | .ok (q', some ⟨c, hc⟩) => ascending n c hc (q'.resolve n) ∅ (c.ancestors.map .enter)
  | ascending _ c _ p _ [] =>
    match c.referenced with
    | .ok ns => popping (ns.foldl enqueue p)
    | .error fault => ended (.error ⟨fault, p.asked⟩)
  | ascending n c hc p visited (.leave m d hd :: rest) => ascending n c hc (p.keep m d hd) visited rest
  | ascending n c hc p visited (.enter m :: rest) =>
    if p.isResolved m || visited.contains m then ascending n c hc p visited rest
    else match p.lookUp m with
      | .error failure => ended (.error failure)
      | .ok (q, none) => ascending n c hc q (visited.insert m) rest
      | .ok (q, some ⟨d, hd⟩) =>
        ascending n c hc (q.promote m) (visited.insert m)
          (d.ancestors.map .enter ++ .leave m d hd :: rest)
  | ended result => ended result

/-- What the pass comes to from here. -/
def result (roots : Std.HashSet ClassName) : Moment source → Except Failure (Pass source)
  | popping p => p.run roots
  | ascending _ c _ p visited stack =>
    match p.ascend visited stack with
    | .error failure => .error failure
    | .ok q =>
      match c.referenced with
      | .ok ns => (ns.foldl enqueue q).run roots
      | .error fault => .error ⟨fault, q.asked⟩
  | ended result => result

/-- From where a class was resolved and its ancestors are all to be visited. -/
theorem result_resolved (roots : Std.HashSet ClassName) (p : Pass source) (n : ClassName)
    (c : ClassFile) (hc : source.find n = .ok c) :
    (ascending n c hc (p.resolve n) ∅ (c.ancestors.map .enter)).result roots
      = match p.settle n c with
        | .error failure => .error failure
        | .ok q => q.run roots := by
  rw [result, settle]
  cases (p.resolve n).ascend ∅ (c.ancestors.map .enter) with
  | error failure => rfl
  | ok q => cases c.referenced <;> rfl

/-- The conditions of the run decide the turn as well. -/
theorem result_turn_popping (roots : Std.HashSet ClassName) (p : Pass source) :
    ((popping p).turn roots).result roots = p.run roots := by
  fun_cases run roots p with
  | case1 hp => simp only [turn, hp, result]
  | case2 n q hp hr => simp only [turn, hp, hr, if_true, result]
  | case3 n q hp hr failure hl => simp only [turn, hp, if_neg hr, hl, result]
  | case4 n q hp hr q' hl hroot => simp only [turn, hp, if_neg hr, hl, if_pos hroot, result]
  | case5 n q hp hr q' hl hroot => simp only [turn, hp, if_neg hr, hl, if_neg hroot, result]
  | case6 n q hp hr q' c hc hl failure hs => simp only [turn, hp, if_neg hr, hl, result_resolved, hs]
  | case7 n q hp hr q' c hc hl r hs => simp only [turn, hp, if_neg hr, hl, result_resolved, hs]

/-- On the way up, a turn does what the ascent does next. -/
theorem result_turn_ascending (roots : Std.HashSet ClassName) (n : ClassName) (c : ClassFile)
    (hc : source.find n = .ok c) (p : Pass source) (visited : Std.HashSet ClassName)
    (stack : List (Visit source)) :
    ((ascending n c hc p visited stack).turn roots).result roots
      = (ascending n c hc p visited stack).result roots := by
  -- A turn takes one visit off the stack, and the ascent starts with the same one.
  cases stack with
  | nil =>
    rw [turn, result, ascend]
    cases c.referenced <;> rfl
  | cons v rest =>
    cases v with
    | leave m d hd => rw [turn, result, result, ascend]
    | enter m =>
      rw [turn]
      by_cases hm : p.isResolved m || visited.contains m
      · rw [if_pos hm, result, result, ascend, if_pos hm]
      · rw [if_neg hm, result, ascend, if_neg hm]
        cases p.lookUp m with
        | error failure => rfl
        | ok found =>
          obtain ⟨q, _ | ⟨d, hd⟩⟩ := found
          · rfl
          · rfl

/-- **A turn changes nothing about the result.** -/
theorem result_turn (roots : Std.HashSet ClassName) (m : Moment source) :
    (m.turn roots).result roots = m.result roots := by
  cases m with
  | popping p => exact result_turn_popping roots p
  | ascending n c hc p visited stack => exact result_turn_ascending roots n c hc p visited stack
  | ended result => rfl

/-! ### What a turn costs -/

/-- How many names of the list were not visited on the way up. -/
def unvisited (names : List ClassName) (visited : Std.HashSet ClassName) : Nat :=
  names.countP fun m => !visited.contains m

/-- A name is visited once. -/
theorem unvisited_insert_lt {visited : Std.HashSet ClassName} {m : ClassName} (hm : m ∈ names)
    (hv : visited.contains m = false) :
    unvisited names (visited.insert m) < unvisited names visited := by
  have hlt : remaining names (visited.insert m).contains [] < remaining names visited.contains [m] := by
    refine remaining_lt hv (fun n => ?_) rfl
    rw [Std.HashSet.contains_insert, Bool.or_comm, BEq.comm]
  rwa [remaining_of_subset _ (List.nil_subset _), remaining_of_subset _ (by simpa using hm)] at hlt

/-- A bound for the turns that follow. On the way up, a name that was not visited weighs more than the
    ancestors of any class, and the references of the class at the bottom are still to be queued. -/
def cost (names : List ClassName) : Moment source → Nat
  | popping p => p.ahead names + 1
  | ascending _ _ _ p visited stack =>
    p.ahead names + unvisited names visited * (names.length + 2) + stack.length + names.length + 2
  | ended _ => 0

/-- Whatever is on the stack is a name of the list. -/
def Inside (names : List ClassName) : Moment source → Prop
  | ascending _ _ _ _ _ stack => toEnter stack ⊆ names
  | popping _ | ended _ => True

/-- A turn of the loop over the pending classes. It drops one of them or resolves it. -/
theorem turn_popping (h : source.Within names) (roots : Std.HashSet ClassName) (p : Pass source) :
    ((popping p).turn roots).Inside names
      ∧ ((popping p).turn roots).cost names < (popping p).cost names := by
  rw [turn]
  cases hp : p.pop? with
  | none => exact ⟨trivial, Nat.succ_pos _⟩
  | some r =>
    obtain ⟨n, q⟩ := r
    have hdrop : q.ahead names < p.ahead names := ahead_lt_of_pop? hp
    by_cases hr : q.isResolved n
    · simp only [if_pos hr]
      exact ⟨trivial, Nat.succ_lt_succ hdrop⟩
    · simp only [if_neg hr]
      cases hl : q.lookUp n with
      | error failure => exact ⟨trivial, Nat.succ_pos _⟩
      | ok found =>
        obtain ⟨q', _ | ⟨c, hc⟩⟩ := found
        · have hq' : q'.ahead names = q.ahead names := ahead_of_lookUp hl
          dsimp only
          split
          · exact ⟨trivial, Nat.succ_pos _⟩
          · refine ⟨trivial, ?_⟩
            show q'.ahead names + 1 < p.ahead names + 1
            omega
        · refine ⟨?_, ?_⟩
          · show toEnter (c.ancestors.map .enter) ⊆ names
            rw [toEnter_map]
            exact h.ancestors_subset hc
          · -- The weight that is set free pays for the way up, whatever is visited there.
            have hfree : (q'.resolve n).ahead names + (names.length + 2) ^ 2 < p.ahead names :=
              ahead_resolve_lt hp (by simpa using hr) hl
            have hvisits : unvisited names ∅ * (names.length + 2)
                ≤ names.length * (names.length + 2) :=
              Nat.mul_le_mul_right _ List.countP_le_length
            have hancestors := h.length_ancestors_le hc
            have hsquare : (names.length + 2) ^ 2
                = names.length * (names.length + 2) + 2 * names.length + 4 := by ring
            simp only [cost, List.length_map]
            omega

/-- A turn of the loop over the stack. A class that is entered for the first time adds to the stack, all
    others only leave it. -/
theorem turn_ascending (h : source.Within names) (roots : Std.HashSet ClassName) (n : ClassName)
    (c : ClassFile) (hc : source.find n = .ok c) (p : Pass source)
    (visited : Std.HashSet ClassName) {stack : List (Visit source)} (hs : toEnter stack ⊆ names) :
    ((ascending n c hc p visited stack).turn roots).Inside names
      ∧ ((ascending n c hc p visited stack).turn roots).cost names
        < (ascending n c hc p visited stack).cost names := by
  cases stack with
  | nil =>
    rw [turn]
    cases hr : c.referenced with
    | error fault => exact ⟨trivial, Nat.succ_pos _⟩
    | ok ns =>
      -- The ascent is over, and what was kept back for the references pays for them.
      have hqueued := ahead_foldl_enqueue_le p (h.referenced_subset hc hr)
      have hlen := h.length_referenced_le hc hr
      refine ⟨trivial, ?_⟩
      simp only [cost]
      omega
  | cons v rest =>
    cases v with
    | leave m d hd =>
      rw [turn]
      refine ⟨hs, ?_⟩
      simp only [cost, ahead_keep, List.length_cons]
      omega
    | enter m =>
      have hrest : toEnter rest ⊆ names := List.subset_of_cons_subset hs
      have hm : m ∈ names := hs (List.mem_cons_self ..)
      rw [turn]
      by_cases hv : p.isResolved m || visited.contains m
      · rw [if_pos hv]
        refine ⟨hrest, ?_⟩
        simp only [cost, List.length_cons]
        omega
      · rw [if_neg hv]
        rw [Bool.not_eq_true, Bool.or_eq_false_iff] at hv
        have hvisits := Nat.mul_le_mul_right (names.length + 2) (unvisited_insert_lt hm hv.2)
        rw [Nat.succ_mul] at hvisits
        cases hl : p.lookUp m with
        | error failure => exact ⟨trivial, Nat.succ_pos _⟩
        | ok found =>
          -- What is missing counts as visited, and only leaves the stack.
          obtain ⟨q, _ | ⟨d, hd⟩⟩ := found
          · refine ⟨hrest, ?_⟩
            simp only [cost, ahead_of_lookUp hl, List.length_cons]
            omega
          · -- One more class is pending, and the stack grows by its ancestors and by its own leave.
            have hqueued := ahead_promote_le q hm
            rw [ahead_of_lookUp hl] at hqueued
            have hancestors := h.length_ancestors_le hd
            refine ⟨?_, ?_⟩
            · show toEnter (d.ancestors.map .enter ++ .leave m d hd :: rest) ⊆ names
              rw [toEnter_map_append, toEnter_leave]
              exact List.append_subset.2 ⟨h.ancestors_subset hd, hrest⟩
            · simp only [cost, List.length_append, List.length_map, List.length_cons]
              omega

/-- **Each turn counts.** As long as the pass has not ended, a turn takes off one of the turns that may
    follow. -/
theorem cost_turn_lt (h : source.Within names) (roots : Std.HashSet ClassName) {m : Moment source}
    (hm : m.Inside names) :
    (∃ r, m = ended r) ∨ (m.turn roots).Inside names ∧ (m.turn roots).cost names < m.cost names := by
  cases m with
  | popping p => exact .inr (turn_popping h roots p)
  | ascending n c hc p visited stack => exact .inr (turn_ascending h roots n c hc p visited hm)
  | ended r => exact .inl ⟨r, rfl⟩

/-- **A pass ends**, within the turns that may follow and with what the pass comes to. -/
theorem exists_iterate_turn (h : source.Within names) (roots : Std.HashSet ClassName)
    {m : Moment source} (hm : m.Inside names) :
    ∃ k ≤ m.cost names, (turn roots)^[k] m = ended (m.result roots) := by
  -- The turns that may follow get fewer, although the queue and the stack may not.
  induction hk : m.cost names using Nat.strong_induction_on generalizing m with
  | _ bound ih =>
    rcases cost_turn_lt h roots hm with ⟨r, rfl⟩ | ⟨hin, hlt⟩
    · exact ⟨0, Nat.zero_le _, rfl⟩
    · obtain ⟨k, hle, he⟩ := ih _ (hk ▸ hlt) hin rfl
      refine ⟨k + 1, by omega, ?_⟩
      rw [Function.iterate_succ_apply, he, result_turn]

end Moment

/-- At the start of a pass, only what is mentioned and the roots can be ahead. -/
theorem ahead_start_le (source : ClassSource) (names roots : List ClassName) :
    (roots.foldl enqueue (start source)).ahead names
      ≤ (names.length + roots.length) * (names.length + 2) ^ 2 + roots.length := by
  have hlen : (roots.foldl enqueue (start source)).pending.toList.length ≤ roots.length := by
    have h := length_pending_foldl_enqueue_le (start source) roots
    rwa [show (start source).pending.toList.length = 0 from rfl, Nat.zero_add] at h
  -- All names can remain, and all roots are pending.
  have hnames := remaining_le_length names (roots.foldl enqueue (start source)).isResolved
    (roots.foldl enqueue (start source)).pending.toList
  have hweight := Nat.mul_le_mul_right ((names.length + 2) ^ 2)
    (hnames.trans (Nat.add_le_add_left hlen names.length))
  unfold ahead
  omega

end Pass

/-- **A pass over a class path ends.** Whatever the roots are, and however the classes on the path
    mention each other or what is missing, the loops end within so many turns, with what the pass
    comes to. -/
theorem ClassPath.exists_iterate_turn_pass (fs : FileSystem) (cp : ClassPath)
    (roots : List ClassName) :
    ∃ k ≤ (roots.length + (cp.mentioned fs).length + 2) ^ 3,
      (Pass.Moment.turn (.ofList roots))^[k]
          (.popping (roots.foldl Pass.enqueue (Pass.start (cp.source fs))))
        = .ended ((cp.source fs).pass roots) := by
  obtain ⟨k, hk, he⟩ := Pass.Moment.exists_iterate_turn (cp.source_within fs) (.ofList roots)
    (m := .popping (roots.foldl Pass.enqueue (Pass.start (cp.source fs)))) trivial
  refine ⟨k, hk.trans ?_, he⟩
  -- The bound of the start is a polynomial in two numbers, which the rest puts into one power.
  have hstart := Pass.ahead_start_le (cp.source fs) (cp.mentioned fs) roots
  generalize roots.length = r at *
  generalize (cp.mentioned fs).length = l at *
  have hwide : (l + r) * (l + 2) ^ 2 ≤ (l + r) * (r + l + 2) ^ 2 :=
    Nat.mul_le_mul_left _ (Nat.pow_le_pow_left (by omega) 2)
  have hsquare : r + l + 2 ≤ (r + l + 2) ^ 2 := Nat.le_self_pow (by omega) _
  calc
    _ ≤ (l + r) * (l + 2) ^ 2 + r + 1 := Nat.succ_le_succ hstart
    _ ≤ (l + r) * (r + l + 2) ^ 2 + 2 * (r + l + 2) ^ 2 := by omega
    _ = (r + l + 2) ^ 3 := by ring

end PrimaryDex
