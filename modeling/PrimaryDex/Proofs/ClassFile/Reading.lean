import PrimaryDex.ClassFile.Decoder

namespace PrimaryDex.Decoder

/-!
# What a decoder looks at

A decoder that succeeds has looked at the bytes that it consumed, at all of them, and at nothing
behind them.

* `Reads` — the decoder takes some bytes for a value, whatever stands behind them;
* `RunsOut` — of less than these bytes it misses some;
* `Steady` — both hold of the bytes that the decoder consumes, whenever it succeeds;
* `Reads.bind`, `Steady.bind` — one decoder after the other, which is how all of them are built from
  `take`, where `steady_take` says it.
-/

variable {α β : Type} {d : Decoder α} {f : α → Decoder β} {a : α} {b : β} {xs ys : List UInt8}

/-- The decoder takes `front` for `a` and leaves what stands behind it. -/
def Reads (d : Decoder α) (front : List UInt8) (a : α) : Prop :=
  ∀ rest offset, d ⟨front ++ rest, offset⟩ = .ok (a, ⟨rest, offset + front.length⟩)

/-- Where `front` breaks off, the decoder wants bytes beyond the end. -/
def RunsOut (d : Decoder α) (front : List UInt8) : Prop :=
  ∀ short more, front = short ++ more → more ≠ [] → ∀ offset, ∃ start wanted,
    d ⟨short, offset⟩ = .error (.unexpectedEnd start wanted)
      ∧ start ≤ offset + short.length ∧ offset + short.length < start + wanted

/-- Whenever the decoder succeeds, it reads what it consumes, and runs out of less. -/
def Steady (d : Decoder α) : Prop :=
  ∀ bytes offset a c, d ⟨bytes, offset⟩ = .ok (a, c) →
    ∃ front, bytes = front ++ c.rest ∧ d.Reads front a ∧ d.RunsOut front

/-! ### One decoder after the other -/

/-- After a value was read, the second decoder goes on with it. -/
theorem bind_of_eq_ok {c c' : Cursor} (h : d c = .ok (a, c')) : (d >>= f) c = f a c' := by
  simp only [bind, StateT.bind, h, Except.bind]

/-- A fault of the first decoder is that of both. -/
theorem bind_of_eq_error {c : Cursor} {e : FormatError} (h : d c = .error e) :
    (d >>= f) c = .error e := by
  simp only [bind, StateT.bind, h, Except.bind]

/-- Two decoders succeed only if the first one does and then the second. -/
theorem exists_of_bind_eq_ok {c c' : Cursor} (h : (d >>= f) c = .ok (b, c')) :
    ∃ a c₁, d c = .ok (a, c₁) ∧ f a c₁ = .ok (b, c') := by
  cases hd : d c with
  | error e => simp [bind_of_eq_error hd] at h
  | ok r =>
    rw [bind_of_eq_ok hd] at h
    exact ⟨r.1, r.2, rfl, h⟩

/-- What two decoders read stands one behind the other. -/
theorem Reads.bind (hd : d.Reads xs a) (hf : (f a).Reads ys b) :
    (d >>= f).Reads (xs ++ ys) b := by
  intro rest offset
  -- For the first decoder, the bytes of the second one are part of the rest.
  have h₁ := hd (ys ++ rest) offset
  have h₂ := hf rest (offset + xs.length)
  rw [List.append_assoc, bind_of_eq_ok h₁, h₂, List.length_append, Nat.add_assoc]

/-- A value that is known needs no bytes. -/
theorem reads_pure (a : α) : (pure a : Decoder α).Reads [] a := fun _ _ => rfl

/-- A value made of what is read. -/
theorem Reads.map {g : α → β} (hd : d.Reads xs a) : (do return g (← d)).Reads xs (g a) := by
  have h := hd.bind (f := fun a => pure (g a)) (reads_pure (g a))
  rwa [List.append_nil] at h

/-- A look-up that succeeds consumes nothing. -/
theorem reads_lift {x : Except FormatError α} (h : x = .ok a) : (liftM x : Decoder α).Reads [] a := by
  subst h
  exact fun _ _ => rfl

/-- Where the bytes of both break off, one of the two runs out. -/
theorem RunsOut.bind (hx : d.RunsOut xs) (hd : d.Reads xs a) (hf : (f a).RunsOut ys) :
    (d >>= f).RunsOut (xs ++ ys) := by
  intro short more hs hm offset
  -- The first decoder may get all that it wants, and then it is the second one that runs out.
  have second (short' : List UInt8) (hs' : short = xs ++ short') (hy : ys = short' ++ more) :
      ∃ start wanted, (d >>= f) ⟨short, offset⟩ = .error (.unexpectedEnd start wanted)
        ∧ start ≤ offset + short.length ∧ offset + short.length < start + wanted := by
    obtain ⟨start, wanted, he, hle, hlt⟩ := hf short' more hy hm (offset + xs.length)
    have hlen : offset + short.length = offset + xs.length + short'.length := by
      rw [hs', List.length_append, Nat.add_assoc]
    refine ⟨start, wanted, ?_, by omega, by omega⟩
    rw [hs', bind_of_eq_ok (hd short' offset), he]
  rcases List.append_eq_append_iff.1 hs with ⟨short', hs', hy⟩ | ⟨more', hx', hm'⟩
  · exact second short' hs' hy
  · by_cases hempty : more' = []
    · subst hempty
      exact second [] (by simpa using hx'.symm) (by simpa using hm'.symm)
    · obtain ⟨start, wanted, he, hle, hlt⟩ := hx short more' hx' hempty offset
      exact ⟨start, wanted, bind_of_eq_error he, hle, hlt⟩

/-- **Decoders in a row.** If both are steady, so is one after the other. -/
theorem Steady.bind (hd : d.Steady) (hf : ∀ a, (f a).Steady) : (d >>= f).Steady := by
  intro bytes offset b c h
  obtain ⟨a, c₁, h₁, h₂⟩ := exists_of_bind_eq_ok h
  obtain ⟨xs, hxs, hreads, hout⟩ := hd bytes offset a c₁ h₁
  -- The second decoder starts with the bytes that the first one left.
  obtain ⟨ys, hys, hreads', hout'⟩ := hf a c₁.rest c₁.offset b c h₂
  refine ⟨xs ++ ys, ?_, hreads.bind hreads', hout.bind hreads hout'⟩
  rw [hxs, hys, List.append_assoc]

/-! ### The simplest decoders -/

/-- Where nothing is consumed, nothing can be missing. -/
theorem steady_pure (a : α) : (pure a : Decoder α).Steady := by
  intro bytes offset a' c h
  obtain ⟨rfl, rfl⟩ := Prod.mk.inj (Except.ok.inj h)
  refine ⟨[], rfl, reads_pure a, fun short more hs hm => ?_⟩
  exact absurd (List.append_eq_nil_iff.1 hs.symm).2 hm

/-- A decoder that refuses does not succeed. -/
theorem throw_ne_ok {e : FormatError} {c : Cursor} {r : α × Cursor} :
    (throw e : Decoder α) c ≠ .ok r := by
  have hc : (throw e : Decoder α) c = .error e := rfl
  simp [hc]

/-- Of a decoder that refuses nothing has to be shown. -/
theorem steady_throw (e : FormatError) : (throw e : Decoder α).Steady :=
  fun _ _ _ _ h => absurd h throw_ne_ok

/-- A look-up consumes nothing, and either succeeds or not. -/
theorem steady_lift (x : Except FormatError α) : (liftM x : Decoder α).Steady := by
  cases x with
  | ok a => exact steady_pure a
  | error e => exact steady_throw e

/-- Making something of a value leaves a decoder steady. -/
theorem Steady.map {g : α → β} (hd : d.Steady) : (do return g (← d)).Steady :=
  hd.bind fun a => steady_pure (g a)

/-- A choice between two decoders does not depend on the bytes that follow. -/
theorem Steady.ite {p : Prop} [Decidable p] {d e : Decoder α} (hd : d.Steady) (he : e.Steady) :
    (if p then d else e).Steady := by
  split
  · exact hd
  · exact he

/-- A check on the way, which leads nowhere or leaves things as they are. -/
theorem Steady.check {p : Prop} [Decidable p] {cause : FormatError} {d : Unit → Decoder α}
    (hd : (d ()).Steady) : (if p then throw cause >>= d else d ()).Steady :=
  .ite ((steady_throw cause).bind fun _ => hd) hd

/-- As many bytes as a text has are that text. -/
theorem take_append (front rest : List UInt8) (offset : Nat) :
    take front.length ⟨front ++ rest, offset⟩ = .ok (front, ⟨rest, offset + front.length⟩) := by
  simp only [take, splitExactly?_eq_some_iff.2 ⟨rfl, rfl⟩]

/-- Bytes of the right number are taken as they are. -/
theorem reads_take {n : Nat} {front : List UInt8} (h : front.length = n) :
    (take n).Reads front front := by
  subst h
  exact take_append front

/-- Taking bytes succeeds exactly if there are as many, and leaves the others. -/
theorem take_eq_ok_iff {n : Nat} {front : List UInt8} {c c' : Cursor} :
    take n c = .ok (front, c')
      ↔ c.rest = front ++ c'.rest ∧ front.length = n ∧ c'.offset = c.offset + n := by
  constructor
  · intro h
    unfold take at h
    split at h
    · rename_i front' rest hs
      obtain ⟨rfl, rfl⟩ := Prod.mk.inj (Except.ok.inj h)
      obtain ⟨hbytes, hlen⟩ := splitExactly?_eq_some_iff.1 hs
      exact ⟨hbytes, hlen, rfl⟩
    · simp at h
  · rintro ⟨hbytes, hlen, hoffset⟩
    have htake := reads_take hlen c'.rest c.offset
    rw [← hbytes, hlen, ← hoffset] at htake
    exact htake

/-- Taking bytes looks at these bytes alone, which have to be there. -/
theorem steady_take (n : Nat) : (take n).Steady := by
  intro bytes offset front c h
  obtain ⟨hbytes, hlen, -⟩ := take_eq_ok_iff.1 h
  refine ⟨front, hbytes, reads_take hlen, fun short more hs' hm offset' => ?_⟩
  -- What is short of `front` has fewer than `n` bytes.
  have hpos : 0 < more.length := List.length_pos_iff.2 hm
  have hshort : short.length < n := by
    rw [← hlen, hs', List.length_append]
    omega
  refine ⟨offset', n, ?_, by omega, by omega⟩
  have hnone : splitExactly? n short = none := by
    unfold splitExactly?
    rw [if_neg]
    rw [List.length_take]
    omega
  simp only [take, hnone]

theorem steady_u8 : u8.Steady := (steady_take 1).map

theorem steady_u16 : u16.Steady := (steady_take 2).map

theorem steady_u32 : u32.Steady := (steady_take 4).map

theorem steady_u64 : u64.Steady :=
  steady_u32.bind fun _ => steady_u32.bind fun _ => steady_pure _

/-! ### Whole files -/

/-- What is read in front of a file is its value. -/
theorem Reads.runOn (hd : d.Reads xs a) (rest : List UInt8) : d.runOn (xs ++ rest) = .ok a := by
  have h := hd rest 0
  simp only [Decoder.runOn, StateT.run, h]
  rfl

/-- A file that breaks off too early is refused for its end. -/
theorem RunsOut.runOn {short more : List UInt8} (hd : d.RunsOut (short ++ more)) (hm : more ≠ []) :
    ∃ start wanted, d.runOn short = .error (.unexpectedEnd start wanted)
      ∧ start ≤ short.length ∧ short.length < start + wanted := by
  obtain ⟨start, wanted, he, hle, hlt⟩ := hd short more rfl hm 0
  rw [Nat.zero_add] at hle hlt
  refine ⟨start, wanted, ?_, hle, hlt⟩
  simp only [Decoder.runOn, StateT.run, he]
  rfl

/-- A file that is accepted was decoded from its start. -/
theorem exists_of_runOn_eq_ok {bytes : List UInt8} (h : d.runOn bytes = .ok a) :
    ∃ c, d ⟨bytes, 0⟩ = .ok (a, c) := by
  cases hr : d ⟨bytes, 0⟩ with
  | error e => simp [Decoder.runOn, StateT.run, hr, Functor.map, Except.map] at h
  | ok r =>
    have ha : r.1 = a := by
      simpa [Decoder.runOn, StateT.run, hr, Functor.map, Except.map] using h
    exact ⟨r.2, ha ▸ rfl⟩

/-- A steady decoder that takes a file for a value reads some bytes in front of it and runs out of
    less. -/
theorem Steady.exists_front (hd : d.Steady) {bytes : List UInt8} (h : d.runOn bytes = .ok a) :
    ∃ front rest, bytes = front ++ rest ∧ d.Reads front a ∧ d.RunsOut front := by
  obtain ⟨c, hc⟩ := exists_of_runOn_eq_ok h
  obtain ⟨front, hb, hreads, hout⟩ := hd bytes 0 a c hc
  exact ⟨front, c.rest, hb, hreads, hout⟩

end PrimaryDex.Decoder
