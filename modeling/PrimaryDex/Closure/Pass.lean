import PrimaryDex.Closure.Queue
import PrimaryDex.Closure.Source
import Std.Data.HashMap.Lemmas
import Std.Data.HashSet.Lemmas

namespace PrimaryDex

/-!
# The state of a pass

A pass over a source of classes resolves one pending class after the other.

* `Pass` — what is resolved, in order, and what is pending; what was found or missed already, so that
  the source is asked once for each name;
* `Pass.promote`, `Pass.enqueue` — put a class at the front or at the back of the pending ones;
* `Pass.lookUp` — takes out or finds a class, and `Failure` is what ends a pass: a fault, with the
  names that the source was asked for. `Pass.LookedUp` lists all that it can come to.
-/

/-- A fault that ends a pass. -/
structure Failure where
  fault : Fault
  /-- The names that the source was asked for, the latest first. -/
  asked : List ClassName

/-- The state of a pass. Each list that is searched has a set beside it. -/
structure Pass (source : ClassSource) where
  resolved : Array ClassName
  resolvedSet : Std.HashSet ClassName
  pending : Queue ClassName
  queued : Std.HashSet ClassName
  /-- Classes that were found and are not resolved, apart from those that were taken out. -/
  loaded : Std.HashMap ClassName ClassFile
  /-- Classes that the source does not have. -/
  missing : Std.HashSet ClassName
  /-- The names that the source was asked for, the latest first. -/
  asked : List ClassName
  find_of_loaded : ∀ {n : ClassName} {c : ClassFile}, loaded[n]? = some c → source.find n = .ok c

namespace Pass

variable {source : ClassSource}

/-- The state before a pass. -/
def start (source : ClassSource) : Pass source where
  resolved := #[]
  resolvedSet := ∅
  pending := .empty
  queued := ∅
  loaded := ∅
  missing := ∅
  asked := []
  find_of_loaded h := by simp at h

/-- Whether a class is resolved. -/
def isResolved (p : Pass source) (n : ClassName) : Bool := p.resolvedSet.contains n

/-- Resolves a class. -/
def resolve (p : Pass source) (n : ClassName) : Pass source :=
  if p.isResolved n then p
  else { p with resolved := p.resolved.push n, resolvedSet := p.resolvedSet.insert n }

/-! ### Pending classes -/

/-- Takes the first pending class. -/
def pop? (p : Pass source) : Option (ClassName × Pass source) :=
  match p.pending.pop? with
  | none => none
  | some (n, pending) => some (n, { p with pending, queued := p.queued.erase n })

/-- Puts a class in front of the pending ones, from its place if it is among them. -/
def promote (p : Pass source) (n : ClassName) : Pass source :=
  if p.queued.contains n then { p with pending := (p.pending.erase n).pushFront n }
  else { p with pending := p.pending.pushFront n, queued := p.queued.insert n }

/-- Puts a class behind the pending ones, unless it is among them or resolved. -/
def enqueue (p : Pass source) (n : ClassName) : Pass source :=
  if p.isResolved n || p.queued.contains n then p
  else { p with pending := p.pending.pushBack n, queued := p.queued.insert n }

/-! ### Found and missing classes -/

/-- Keeps a class that was found. -/
def keep (p : Pass source) (n : ClassName) (c : ClassFile) (h : source.find n = .ok c) :
    Pass source :=
  { p with
    loaded := p.loaded.insert n c
    find_of_loaded := by
      intro m d hm
      rw [Std.HashMap.getElem?_insert] at hm
      split at hm
      · rename_i hn
        rw [Option.some.injEq] at hm
        rw [← eq_of_beq hn, ← hm, h]
      · exact p.find_of_loaded hm }

/-- Takes a class out of those that were found. -/
def release (p : Pass source) (n : ClassName) : Pass source :=
  { p with
    loaded := p.loaded.erase n
    find_of_loaded := by
      intro m d hm
      rw [Std.HashMap.getElem?_erase] at hm
      split at hm
      · simp at hm
      · exact p.find_of_loaded hm }

/-- A class that the source has. -/
abbrev Found (source : ClassSource) (n : ClassName) := { c : ClassFile // source.find n = .ok c }

/-- Takes a class out of those that were found, or else finds it, or learns that the source does not
    have it. Any other fault ends the pass. Only here the source is asked. -/
def lookUp (p : Pass source) (n : ClassName) : Except Failure (Pass source × Option (Found source n)) :=
  match hl : p.loaded[n]? with
  | some c => .ok (p.release n, some ⟨c, p.find_of_loaded hl⟩)
  | none =>
    if p.missing.contains n then .ok (p, none)
    else
      let asked := n :: p.asked
      match hf : source.find n with
      | .ok c => .ok ({ p with asked }, some ⟨c, hf⟩)
      | .error (.classNotFound _) => .ok ({ p with missing := p.missing.insert n, asked }, none)
      | .error fault => .error ⟨fault, asked⟩

/-- What a look-up can come to: the class was kept, or it is known to be missing, or the source is
    asked, and has the class, does not have it, or fails. -/
inductive LookedUp (p : Pass source) (n : ClassName) :
    Except Failure (Pass source × Option (Found source n)) → Prop where
  | kept {c : ClassFile} (hl : p.loaded[n]? = some c) :
      LookedUp p n (.ok (p.release n, some ⟨c, p.find_of_loaded hl⟩))
  | known (hl : p.loaded[n]? = none) (hm : p.missing.contains n = true) :
      LookedUp p n (.ok (p, none))
  | found (hl : p.loaded[n]? = none) (hm : p.missing.contains n = false) {c : ClassFile}
      (hf : source.find n = .ok c) :
      LookedUp p n (.ok ({ p with asked := n :: p.asked }, some ⟨c, hf⟩))
  | notFound (hl : p.loaded[n]? = none) (hm : p.missing.contains n = false) {m : ClassName}
      (hf : source.find n = .error (.classNotFound m)) :
      LookedUp p n (.ok ({ p with missing := p.missing.insert n, asked := n :: p.asked }, none))
  | failed (hl : p.loaded[n]? = none) (hm : p.missing.contains n = false) {fault : Fault}
      (hf : source.find n = .error fault) (hc : ∀ m, fault ≠ .classNotFound m) :
      LookedUp p n (.error ⟨fault, n :: p.asked⟩)

/-- What a look-up comes to is one of the five cases. -/
theorem lookedUp_of_eq {p : Pass source} {n : ClassName}
    {result : Except Failure (Pass source × Option (Found source n))} (h : p.lookUp n = result) :
    LookedUp p n result := by
  subst h
  unfold lookUp
  split
  · rename_i hl
    exact .kept hl
  · rename_i hl
    split
    · rename_i hm
      exact .known hl hm
    · rename_i hm
      rw [Bool.not_eq_true] at hm
      split
      · rename_i hf
        exact .found hl hm hf
      · rename_i hf
        exact .notFound hl hm hf
      · rename_i hc hf
        exact .failed hl hm hf hc

/-! ### What the operations leave as it is -/

/-- Resolving a class adds it to the resolved ones and nothing else. -/
theorem isResolved_resolve (p : Pass source) (n m : ClassName) :
    (p.resolve n).isResolved m = (p.isResolved m || m == n) := by
  simp only [resolve]
  split
  · rename_i h
    by_cases hm : m = n
    · subst hm
      simp [h]
    · simp [hm]
  · simp only [isResolved, Std.HashSet.contains_insert]
    rw [Bool.or_comm, BEq.comm]

/-- Resolving leaves the pending classes as they are. -/
@[simp] theorem pending_resolve (p : Pass source) (n : ClassName) :
    (p.resolve n).pending = p.pending := by
  simp only [resolve]
  split <;> rfl

/-- Taking out a class that was kept resolves nothing. -/
@[simp] theorem isResolved_release (p : Pass source) (n m : ClassName) :
    (p.release n).isResolved m = p.isResolved m := rfl

/-- Taking out a class that was kept leaves the pending classes as they are. -/
@[simp] theorem pending_release (p : Pass source) (n : ClassName) :
    (p.release n).pending = p.pending := rfl

/-- Taking the first pending class does not resolve it yet. -/
theorem isResolved_of_pop? {p q : Pass source} {n : ClassName} (h : p.pop? = some (n, q))
    (m : ClassName) : q.isResolved m = p.isResolved m := by
  simp only [pop?] at h
  split at h
  · simp at h
  · simp only [Option.some.injEq, Prod.mk.injEq] at h
    rw [← h.2]
    rfl

/-- The class that is taken was the first pending one. -/
theorem pending_of_pop? {p q : Pass source} {n : ClassName} (h : p.pop? = some (n, q)) :
    p.pending.toList = n :: q.pending.toList := by
  simp only [pop?] at h
  split at h
  · simp at h
  · rename_i hq
    simp only [Option.some.injEq, Prod.mk.injEq] at h
    rw [← h.1, ← h.2, Queue.toList_of_pop? hq]

/-- Promoting resolves nothing. -/
@[simp] theorem isResolved_promote (p : Pass source) (n m : ClassName) :
    (p.promote n).isResolved m = p.isResolved m := by
  simp only [promote]
  split <;> rfl

/-- A promoted class stands at the front, and no longer where it stood before. -/
theorem pending_promote (p : Pass source) (n : ClassName) :
    (p.promote n).pending.toList
      = n :: if p.queued.contains n then p.pending.toList.erase n else p.pending.toList := by
  simp only [promote]
  split <;> simp

/-- Enqueuing resolves nothing. -/
@[simp] theorem isResolved_enqueue (p : Pass source) (n m : ClassName) :
    (p.enqueue n).isResolved m = p.isResolved m := by
  simp only [enqueue]
  split <;> rfl

/-- An enqueued class stands at the back, unless it is resolved or pending already. -/
theorem pending_enqueue (p : Pass source) (n : ClassName) :
    (p.enqueue n).pending.toList = p.pending.toList
      ++ if p.isResolved n || p.queued.contains n then [] else [n] := by
  simp only [enqueue]
  split <;> simp

/-- Keeping a class resolves nothing. -/
@[simp] theorem isResolved_keep (p : Pass source) (n m : ClassName) (c : ClassFile)
    (h : source.find n = .ok c) : (p.keep n c h).isResolved m = p.isResolved m := rfl

/-- Keeping a class leaves the pending classes as they are. -/
@[simp] theorem pending_keep (p : Pass source) (n : ClassName) (c : ClassFile)
    (h : source.find n = .ok c) : (p.keep n c h).pending = p.pending := rfl

/-- A look-up resolves nothing, whatever it comes to. -/
theorem isResolved_of_lookUp {p q : Pass source} {n : ClassName} {found : Option (Found source n)}
    (h : p.lookUp n = .ok (q, found)) (m : ClassName) : q.isResolved m = p.isResolved m := by
  cases lookedUp_of_eq h with
  | kept => rw [isResolved_release]
  | known | found | notFound => rfl

/-- A look-up leaves the pending classes as they are. -/
theorem pending_of_lookUp {p q : Pass source} {n : ClassName} {found : Option (Found source n)}
    (h : p.lookUp n = .ok (q, found)) : q.pending = p.pending := by
  cases lookedUp_of_eq h with
  | kept => rw [pending_release]
  | known | found | notFound => rfl

end Pass

end PrimaryDex
