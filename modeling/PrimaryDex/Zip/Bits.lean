namespace PrimaryDex.Zip

/-!
# Reading bits

Compressed data is a row of bits, each byte from its lowest bit on.

* `Bits` — the bits that are left, with their number `Bits.size`;
* `BitReader` — a reader of bits, which never leaves more of them than it found;
* `BitReader.Strict` — such a reader takes at least one bit, so that it can be repeated.
-/

/-- Why compressed data can not be expanded. -/
inductive InflateError where
  /-- The data breaks a rule of the format. -/
  | corrupt
  /-- The data ends before the last block does. -/
  | incomplete
  deriving DecidableEq

/-- The lowest `available` bits of `current`, and then whole bytes. -/
structure Bits where
  current : UInt8
  available : Nat
  rest : List UInt8

namespace Bits

/-- The number of bits that are left. -/
def size (s : Bits) : Nat := s.available + 8 * s.rest.length

/-- The bits of some bytes. -/
def ofBytes (bytes : List UInt8) : Bits := ⟨0, 0, bytes⟩

/-- The next bit and the others. -/
def next (s : Bits) : Except InflateError (Bool × Bits) :=
  match s.available with
  | n + 1 => .ok (s.current &&& 1 == 1, ⟨s.current >>> 1, n, s.rest⟩)
  | 0 =>
    match s.rest with
    | [] => .error .incomplete
    | b :: rest => .ok (b &&& 1 == 1, ⟨b >>> 1, 7, rest⟩)

/-- A bit that is taken is not left. -/
theorem size_next {s t : Bits} {b : Bool} (h : s.next = .ok (b, t)) : t.size < s.size := by
  obtain ⟨current, available, rest⟩ := s
  cases available with
  | succ n =>
    simp only [next, Except.ok.injEq, Prod.mk.injEq] at h
    rw [← h.2]
    simp only [size]
    omega
  | zero =>
    cases rest with
    | nil => simp [next] at h
    | cons c rest =>
      simp only [next, Except.ok.injEq, Prod.mk.injEq] at h
      rw [← h.2]
      simp only [size, List.length_cons]
      omega

/-- The bytes that follow the one that is being read. -/
def aligned (s : Bits) : Bits := ⟨0, 0, s.rest⟩

end Bits

/-- A reader of bits. -/
structure BitReader (α : Type) where
  run : Bits → Except InflateError (α × Bits)
  shrinks : ∀ {s t a}, run s = .ok (a, t) → t.size ≤ s.size

namespace BitReader

variable {α β : Type}

/-- Refuses whatever comes. -/
def fail (e : InflateError) : BitReader α where
  run _ := .error e
  shrinks h := by simp at h

protected def pure (a : α) : BitReader α where
  run s := .ok (a, s)
  shrinks h := by
    simp only [Except.ok.injEq, Prod.mk.injEq] at h
    simp [h.2]

protected def bind (r : BitReader α) (k : α → BitReader β) : BitReader β where
  run s :=
    match r.run s with
    | .ok (a, t) => (k a).run t
    | .error e => .error e
  shrinks {s u b} h := by
    split at h
    · rename_i a t hr
      exact Nat.le_trans ((k a).shrinks h) (r.shrinks hr)
    · simp at h

instance : Monad BitReader where
  pure := BitReader.pure
  bind := BitReader.bind

/-- The next bit. -/
def bit : BitReader Bool where
  run := Bits.next
  shrinks h := Nat.le_of_lt (Bits.size_next h)

/-- The number that `n` bits write, the lowest one first. -/
def number : Nat → BitReader Nat
  | 0 => return 0
  | n + 1 => do
    let low ← bit
    let high ← number n
    return 2 * high + low.toNat

/-- Skips to the next whole byte. -/
def align : BitReader Unit where
  run s := .ok ((), s.aligned)
  shrinks {s t a} h := by
    simp only [Except.ok.injEq, Prod.mk.injEq] at h
    rw [← h.2]
    simp only [Bits.size, Bits.aligned]
    omega

/-- Whether a reader takes at least one bit. -/
def Strict (r : BitReader α) : Prop :=
  ∀ {s t a}, r.run s = .ok (a, t) → t.size < s.size

theorem strict_bit : Strict bit := fun h => Bits.size_next h

/-- A reader that starts strictly is strict. -/
theorem Strict.bind {r : BitReader α} (hr : Strict r) (k : α → BitReader β) :
    Strict (r >>= k) := by
  intro s u b h
  change (BitReader.bind r k).run s = _ at h
  simp only [BitReader.bind] at h
  split at h
  · rename_i a t h'
    exact Nat.lt_of_le_of_lt ((k a).shrinks h) (hr h')
  · simp at h

end BitReader

end PrimaryDex.Zip
