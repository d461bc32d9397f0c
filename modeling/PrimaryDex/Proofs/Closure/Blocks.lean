import Mathlib.Data.Set.Card
import PrimaryDex.Proofs.Closure.Reachability

namespace PrimaryDex

open Relation

/-!
# Ancestors behind their class

In a closure the ancestors of a class that are not placed yet stand directly behind it.

* `Stage.Steps.exists_block` — classes in front of the queue that lead up to no other class are
  resolved next, before anything behind them;
* `ClassSource.freshAncestors`, `ClassSource.laterAncestors` — the ancestors of a class that an
  earlier part of a closure lacks, over chains that avoid this part and over all chains;
* `ClassSource.exists_freshAncestors_block`, `ClassSource.exists_laterAncestors_block` — each of the
  two is a block behind the class; `ClassSource.exists_block_of_earlier` is the case of a circle;
* `ClassSource.closure_places_ancestors` — the same for the class at a position, with the number of
  its ancestors as the length of the block.
-/

namespace Stage

variable {source : ClassSource} {roots : List ClassName}

/-! ### What stands in front of the queue -/

/-- The source has the classes of `front`, and what they extend is among them or resolved. -/
structure ClosedUp (source : ClassSource) (resolved front : List ClassName) : Prop where
  has : ∀ a ∈ front, source.Has a
  extends_mem : ∀ a ∈ front, ∀ b, source.Extends a b → b ∈ resolved ∨ b ∈ front

/-- A lineage leads up to itself and to what barred it. -/
theorem closedUp_lineage {resolved ns : List ClassName} {c : ClassFile}
    (hl : source.lineage resolved.contains c.ancestors = .ok ns) : ClosedUp source resolved ns := by
  refine ⟨fun a ha => (ClassSource.free_of_mem_lineage hl a ha).1, ?_⟩
  rintro a ha b ⟨d, hd, hb, hb'⟩
  rcases ClassSource.mem_or_lacks_of_lineage hl (.inr ⟨a, ha, d, hd, hb⟩) with h | h | h
  · exact .inl h
  · exact .inr h
  · exact absurd h hb'.not_lacks

/-- The order of the classes in front does not matter. -/
theorem ClosedUp.of_perm {resolved front front' : List ClassName}
    (h : ClosedUp source resolved front) (hp : front'.Perm front) :
    ClosedUp source resolved front' :=
  ⟨fun a ha => h.has a (hp.mem_iff.1 ha),
    fun a ha b hb => (h.extends_mem a (hp.mem_iff.1 ha) b hb).imp_right hp.mem_iff.2⟩

/-- Resolving the first class leaves the others closed. -/
theorem ClosedUp.tail {resolved front : List ClassName} {n : ClassName}
    (h : ClosedUp source resolved (n :: front)) : ClosedUp source (resolved ++ [n]) front := by
  refine ⟨fun a ha => h.has a (List.mem_cons_of_mem _ ha), fun a ha b hb => ?_⟩
  rcases h.extends_mem a (List.mem_cons_of_mem _ ha) b hb with hb' | hb'
  · exact .inl (List.mem_append_left _ hb')
  · rcases List.mem_cons.1 hb' with rfl | hb'
    · exact .inl (by simp)
    · exact .inr hb'

/-- The lineage of the first class stays among those behind it. -/
theorem ClosedUp.lineage_subset {resolved front ns : List ClassName} {n : ClassName} {c : ClassFile}
    (h : ClosedUp source resolved (n :: front)) (hc : source.find n = .ok c)
    (hl : source.lineage (resolved ++ [n]).contains c.ancestors = .ok ns) : ns ⊆ front := by
  have mem_front {a b : ClassName} (ha : a ∈ n :: front)
      (hb : source.Extends a b ∧ (resolved ++ [n]).contains b = false) : b ∈ front := by
    have hb' : b ∉ resolved ∧ b ≠ n := by simpa using hb.2
    have hbf := (h.extends_mem a ha b hb.1).resolve_left hb'.1
    exact (List.mem_cons.1 hbf).resolve_left hb'.2
  intro m hm
  have hup := (ClassSource.mem_lineage_iff hc hl).1 hm
  clear hm
  induction hup with
  | single hb => exact mem_front (List.mem_cons_self ..) hb
  | tail _ hb ih => exact mem_front (List.mem_cons_of_mem _ ih) hb

/-- Promoting a part of a list without repetitions reorders it. -/
theorem reverse_append_filter_perm {front ns : List ClassName} (hf : front.Nodup) (hd : ns.Nodup)
    (hs : ns ⊆ front) : (ns.reverse ++ front.filter (· ∉ ns)).Perm front := by
  refine (List.perm_ext_iff_of_nodup (nodup_reverse_append_filter hd hf) hf).2 fun m => ?_
  by_cases hm : m ∈ ns
  · simp [hm, hs hm]
  · simp [hm]

/-- **A block comes out whole.** If the first classes of the queue lead up to no others, they are
    resolved before all that is behind them, in some order. -/
theorem Steps.exists_block {resolved front rest out : List ClassName}
    (h : Steps source roots ⟨resolved, front ++ rest⟩ ⟨out, []⟩)
    (ht : Tidy ⟨resolved, front ++ rest⟩) (hf : ClosedUp source resolved front) :
    ∃ block, block.Perm front ∧ resolved ++ block <+: out := by
  -- Settling the first class reorders the others in front, so the induction is on their number.
  induction hk : front.length generalizing resolved front rest with
  | zero =>
    obtain rfl := List.length_eq_zero_iff.1 hk
    exact ⟨[], .refl _, by simpa using h.resolved_prefix⟩
  | succ k ih =>
    obtain ⟨n, front, rfl⟩ := List.exists_cons_of_length_eq_add_one hk
    rw [List.cons_append] at h ht
    rcases h.cases_head with he | ⟨t, hst, hsteps⟩
    · simp at he
    have ht' := hst.tidy ht
    cases hst with
    | drop hn hr => exact absurd hn (hf.has n (List.mem_cons_self ..)).not_lacks
    | @settle _ _ _ lineage referenced c hc hl hr =>
      obtain ⟨added, hs, -⟩ := exists_settle_append_eq resolved front rest n lineage referenced
      rw [hs] at hsteps ht'
      have hsub := hf.lineage_subset hc hl
      have hperm := reverse_append_filter_perm
        (List.nodup_cons.1 ht.nodup_pending).2.of_append_left (ClassSource.nodup_lineage hl) hsub
      obtain ⟨block, hb, hpre⟩ := ih hsteps ht' (hf.tail.of_perm hperm) (by
        rw [hperm.length_eq]
        simpa using hk)
      exact ⟨n :: block, (hb.trans hperm).cons n, by simpa using hpre⟩

/-- On the way to a list of resolved classes, each of them is settled behind those before it. -/
theorem Steps.exists_settle {s : Stage} {before after : List ClassName} {n : ClassName}
    (h : Steps source roots s ⟨before ++ n :: after, []⟩) (hs : s.resolved <+: before) :
    ∃ rest c lineage referenced, Steps source roots s ⟨before, n :: rest⟩
      ∧ source.find n = .ok c
      ∧ source.lineage (before ++ [n]).contains c.ancestors = .ok lineage
      ∧ c.referenced = .ok referenced
      ∧ Steps source roots (settle ⟨before, rest⟩ n lineage referenced)
          ⟨before ++ n :: after, []⟩ := by
  induction h using ReflTransGen.head_induction_on with
  | refl => simpa using hs.length_le
  | @head s t hst hsteps ih =>
    have hpre := Steps.resolved_prefix hsteps
    cases hst with
    | drop hn hr =>
      obtain ⟨rest, c, lineage, referenced, hs', h'⟩ := ih hs
      exact ⟨rest, c, lineage, referenced, .head (.drop hn hr) hs', h'⟩
    | @settle m resolved rest lineage referenced c hc hl hr =>
      rw [resolved_settle] at hpre ih
      by_cases hlen : resolved.length = before.length
      · obtain rfl := hs.eq_of_length hlen
        obtain rfl : m = n := by simpa using (List.prefix_append_right_inj _).1 hpre
        exact ⟨rest, c, lineage, referenced, .refl, hc, hl, hr, hsteps⟩
      · -- Fewer classes are resolved than stand before `n`, so this step is not the one yet.
        have hlt : (resolved ++ [m]).length ≤ before.length := by
          have := hs.length_le
          simp only [List.length_append, List.length_singleton] at this ⊢
          omega
        obtain ⟨rest', c', lineage', referenced', hs', h'⟩ :=
          ih (List.prefix_of_prefix_length_le hpre (List.prefix_append ..) hlt)
        exact ⟨rest', c', lineage', referenced', .head (.settle hc hl hr) hs', h'⟩

end Stage

namespace ClassSource

open Sample (app api base helper)

variable {source : ClassSource} {roots out : List ClassName}

/-! ### The ancestors that are not placed yet -/

/-- The ancestors of `n` over chains that avoid `earlier`. -/
def freshAncestors (source : ClassSource) (earlier : List ClassName) (n : ClassName) :
    Set ClassName :=
  {m | TransGen (fun a b => source.Extends a b ∧ b ∉ earlier) n m}

/-- The ancestors of `n` that are not in `earlier`, over whatever chains. -/
def laterAncestors (source : ClassSource) (earlier : List ClassName) (n : ClassName) :
    Set ClassName :=
  {m | TransGen source.Extends n m ∧ m ∉ earlier}

/-- A chain to a class outside `T` has a last class in `T`, if it meets `T` at all. -/
theorem transGen_extends_avoiding {T : List ClassName} {n m : ClassName}
    (h : TransGen source.Extends n m) (hm : m ∉ T) :
    m ∈ source.freshAncestors T n
      ∨ ∃ k ∈ T, TransGen source.Extends n k ∧ m ∈ source.freshAncestors T k := by
  induction h with
  | single hb => exact .inl (.single ⟨hb, hm⟩)
  | @tail a b ha hb ih =>
    by_cases haT : a ∈ T
    · exact .inr ⟨a, haT, ha, .single ⟨hb, hm⟩⟩
    rcases ih haT with h' | ⟨k, hk, hnk, h'⟩
    · exact .inl (h'.tail ⟨hb, hm⟩)
    · exact .inr ⟨k, hk, hnk, h'.tail ⟨hb, hm⟩⟩

/-- Chains that avoid the earlier classes are chains, and end outside these. -/
theorem freshAncestors_subset_laterAncestors (earlier : List ClassName) (n : ClassName) :
    source.freshAncestors earlier n ⊆ source.laterAncestors earlier n := by
  intro m hm
  refine ⟨TransGen.mono (fun _ _ h => h.1) _ _ hm, ?_⟩
  cases hm with
  | single hb => exact hb.2
  | tail _ hb => exact hb.2

/-- A closure goes on with the fresh ancestors of the class that it has come to. -/
theorem exists_freshAncestors_block {before after : List ClassName} {n : ClassName}
    (h : source.closure roots = .ok (before ++ n :: after)) :
    ∃ block, block <+: after ∧ ∀ m, m ∈ block ↔ m ∈ source.freshAncestors (before ++ [n]) n := by
  obtain ⟨rest, c, lineage, referenced, hs, hc, hl, hr, hsteps⟩ :=
    (steps_of_closure h).exists_settle (by simp [Stage.start])
  have hstep : Stage.Step source roots ⟨before, n :: rest⟩ _ := .settle hc hl hr
  have htidy := hstep.tidy (hs.tidy (Stage.tidy_start roots))
  obtain ⟨added, hset, -⟩ := Stage.exists_settle_eq ⟨before, rest⟩ n lineage referenced
  rw [hset, List.append_assoc] at hsteps htidy
  obtain ⟨block, hb, hpre⟩ := hsteps.exists_block htidy
    ((Stage.closedUp_lineage hl).of_perm (List.reverse_perm lineage))
  refine ⟨block, ?_, fun m => ?_⟩
  · rw [List.append_cons before n after] at hpre
    exact (List.prefix_append_right_inj _).1 hpre
  · have hbar : (fun a b => source.Extends a b ∧ (before ++ [n]).contains b = false)
        = fun a b => source.Extends a b ∧ b ∉ before ++ [n] := by
      funext a b
      rw [← Bool.not_eq_true, List.contains_iff_mem]
    rw [hb.mem_iff, List.mem_reverse, mem_lineage_iff hc hl, hbar]
    rfl

/-- If an ancestor `k` of `n` stands before it and has ancestors left behind `n`, then the block of
    `k` reaches beyond `n`, and what it holds there are the ancestors of `n` that are left. -/
theorem exists_block_of_earlier {front back after block : List ClassName} {k n m : ClassName}
    (hnd : (front ++ k :: back ++ n :: after).Nodup) (hnk : TransGen source.Extends n k)
    (hkm : TransGen source.Extends k m) (hm : m ∉ front ++ k :: back ++ [n])
    (hpre : block <+: back ++ n :: after)
    (hmem : ∀ x, x ∈ block ↔ x ∈ source.laterAncestors (front ++ [k]) k) :
    ∃ rest, rest <+: after
      ∧ ∀ x, x ∈ rest ↔ x ∈ source.laterAncestors (front ++ k :: back ++ [n]) n := by
  have hfront : front ++ [k] ⊆ front ++ k :: back ++ [n] := fun x hx => by
    simp only [List.mem_append, List.mem_cons] at hx ⊢
    grind
  have hback : back ++ [n] ⊆ front ++ k :: back ++ [n] := fun x hx => by
    simp only [List.mem_append, List.mem_cons] at hx ⊢
    grind
  have hmb : m ∈ block := (hmem m).2 ⟨hkm, fun h' => hm (hfront h')⟩
  -- The block of `k` ends behind `n`, as `m` is in it.
  have hn : back ++ [n] <+: block := by
    rw [List.append_cons] at hpre
    refine (List.prefix_or_prefix_of_prefix hpre (List.prefix_append ..)).resolve_left ?_
    exact fun h' => hm (hback (h'.subset hmb))
  obtain ⟨rest, rfl⟩ := hn
  rw [List.append_cons back n after, List.prefix_append_right_inj] at hpre
  -- What is left of the block behind `n` are ancestors of `n`, by way of `k`, and the other way
  -- round through the circle.
  refine ⟨rest, hpre, fun x => ⟨fun hx => ⟨?_, ?_⟩, fun hx => ?_⟩⟩
  · exact hnk.trans ((hmem x).1 (List.mem_append_right _ hx)).1
  · rw [List.append_cons, List.nodup_append] at hnd
    exact fun hx' => hnd.2.2 x hx' x (hpre.subset hx) rfl
  · have hkn := ((hmem n).1 (by simp)).1
    have hx' := (hmem x).2 ⟨hkn.trans hx.1, fun h' => hx.2 (hfront h')⟩
    exact (List.mem_append.1 hx').resolve_left fun h' => hx.2 (hback h')

/-- A closure goes on with all ancestors that are not placed yet. Those whose chains lead through a
    class placed before belong to the block of that class, which is still open. -/
theorem exists_laterAncestors_block {before after : List ClassName} {n : ClassName}
    (h : source.closure roots = .ok (before ++ n :: after)) :
    ∃ block, block <+: after ∧ ∀ m, m ∈ block ↔ m ∈ source.laterAncestors (before ++ [n]) n := by
  induction hlen : before.length using Nat.strong_induction_on generalizing before n after with
  | _ len ih =>
    by_cases hex : ∃ k ∈ before, TransGen source.Extends n k ∧
        ∃ m, TransGen source.Extends k m ∧ m ∉ before ++ [n]
    · obtain ⟨k, hk, hnk, m, hkm, hm⟩ := hex
      obtain ⟨front, back, rfl⟩ := List.append_of_mem hk
      have hout : front ++ k :: back ++ n :: after = front ++ k :: (back ++ n :: after) := by simp
      obtain ⟨block, hpre, hmem⟩ := ih front.length (by simp [← hlen]) (hout ▸ h) rfl
      exact exists_block_of_earlier (nodup_closure h) hnk hkm hm hpre hmem
    · -- No chain to what is left leads through a class before `n`.
      obtain ⟨block, hpre, hmem⟩ := exists_freshAncestors_block h
      refine ⟨block, hpre, fun m => (hmem m).trans ⟨?_, fun hm => ?_⟩⟩
      · exact fun hm => freshAncestors_subset_laterAncestors _ _ hm
      · rcases transGen_extends_avoiding hm.1 hm.2 with hm' | ⟨k, hk, hnk, hm'⟩
        · exact hm'
        · rcases List.mem_append.1 hk with hk | hk
          · have hkm := freshAncestors_subset_laterAncestors _ _ hm'
            exact absurd ⟨k, hk, hnk, m, hkm.1, hm.2⟩ hex
          · exact List.mem_singleton.1 hk ▸ hm'

/-- A block that holds a set and nothing twice takes as many places as the set has elements. -/
theorem setOf_mem_take_ncard {block after : List ClassName} {N : Set ClassName}
    (hb : block <+: after) (hd : block.Nodup) (hN : ∀ m, m ∈ block ↔ m ∈ N) :
    {m | m ∈ after.take N.ncard} = N := by
  have hN' : N = block.toFinset := by
    ext m
    simp [hN]
  have hcard : N.ncard = block.length := by
    rw [hN', Set.ncard_coe_finset, List.toFinset_card_of_nodup hd]
  rw [hcard, ← List.prefix_iff_eq_take.1 hb]
  ext m
  exact hN m

/-- **Ancestors behind their class.** In a closure, the ancestors of a class that do not occur up to
    it take the places directly behind it, and so do those of them that are reached over chains
    which avoid what occurs up to it. -/
theorem closure_places_ancestors (h : source.closure roots = .ok out) {p : Nat}
    (hp : p < out.length) :
    {m | m ∈ (out.drop (p + 1)).take (source.laterAncestors (out.take (p + 1)) out[p]).ncard}
        = source.laterAncestors (out.take (p + 1)) out[p]
      ∧ {m | m ∈ (out.drop (p + 1)).take (source.freshAncestors (out.take (p + 1)) out[p]).ncard}
        = source.freshAncestors (out.take (p + 1)) out[p] := by
  have hout : out = out.take p ++ out[p] :: out.drop (p + 1) := by simp
  have hnd : (out.drop (p + 1)).Nodup := (nodup_closure h).sublist (List.drop_sublist ..)
  -- What occurs up to the class are the classes before it and the class itself.
  rw [List.take_succ_eq_append_getElem hp]
  obtain ⟨later, hl, hl'⟩ := exists_laterAncestors_block (hout ▸ h)
  obtain ⟨fresh, hf, hf'⟩ := exists_freshAncestors_block (hout ▸ h)
  exact ⟨setOf_mem_take_ncard hl (hnd.sublist hl.sublist) hl',
    setOf_mem_take_ncard hf (hnd.sublist hf.sublist) hf'⟩

/-- Behind `App` stand its two ancestors, `Base` below `Api`, in a block of two. -/
theorem closure_places_ancestors_app :
    0 < [app, api, base, helper].length
      ∧ {m | m ∈ [api, base, helper].take (Sample.source.laterAncestors [app] app).ncard}
        = Sample.source.laterAncestors [app] app
      ∧ {m | m ∈ [api, base, helper].take (Sample.source.freshAncestors [app] app).ncard}
        = Sample.source.freshAncestors [app] app :=
  ⟨by decide, closure_places_ancestors (p := 0) Sample.closure_app (by decide)⟩

end ClassSource

end PrimaryDex
