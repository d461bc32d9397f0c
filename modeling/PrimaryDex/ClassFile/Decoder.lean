import PrimaryDex.ClassFile.FormatError

namespace PrimaryDex

/-!
# Decoding bytes

A `Decoder` consumes the front of a list of bytes and counts what it consumed. Numbers are
big-endian.

* `splitExactly?` — cuts a list after a number of elements that it must have;
* `Decoder.take` — consumes that many bytes; all other decoders are built from it.
-/

/-- The first `n` elements and the others, if there are `n`. -/
def splitExactly? {α : Type} (n : Nat) (xs : List α) : Option (List α × List α) :=
  let front := xs.take n
  if front.length = n then some (front, xs.drop n) else none

/-- A list is split exactly if it is long enough, into a front of that length and the rest. -/
theorem splitExactly?_eq_some_iff {α : Type} {n : Nat} {xs front rest : List α} :
    splitExactly? n xs = some (front, rest) ↔ xs = front ++ rest ∧ front.length = n := by
  simp only [splitExactly?, Option.ite_none_right_eq_some, Option.some.injEq, Prod.mk.injEq]
  constructor
  · rintro ⟨hl, rfl, rfl⟩
    exact ⟨(List.take_append_drop n xs).symm, hl⟩
  · rintro ⟨rfl, rfl⟩
    simp

/-- What is left of the bytes, and how many are consumed. -/
structure Cursor where
  rest : List UInt8
  offset : Nat

/-- A reader of some bytes that may refuse them. -/
abbrev Decoder := StateT Cursor (Except FormatError)

namespace Decoder

/-- Consumes exactly `n` bytes. -/
def take (n : Nat) : Decoder (List UInt8) := fun c =>
  match splitExactly? n c.rest with
  | some (front, rest) => .ok (front, ⟨rest, c.offset + n⟩)
  | none => .error (.unexpectedEnd c.offset n)

/-- The number that some bytes write, the most significant one first. -/
def bigEndian (bytes : List UInt8) : Nat :=
  bytes.foldl (fun n b => n * 256 + b.toNat) 0

def u8 : Decoder UInt8 := return UInt8.ofNat (bigEndian (← take 1))

def u16 : Decoder UInt16 := return UInt16.ofNat (bigEndian (← take 2))

def u32 : Decoder UInt32 := return UInt32.ofNat (bigEndian (← take 4))

/-- Two words, so a fault in the second one is reported at its own place. -/
def u64 : Decoder UInt64 := do
  let high ← u32
  let low ← u32
  return high.toUInt64 <<< 32 ||| low.toUInt64

/-- Runs a decoder from the start of `bytes` and drops what it leaves. -/
def runOn {α : Type} (d : Decoder α) (bytes : List UInt8) : Except FormatError α :=
  (·.1) <$> d.run ⟨bytes, 0⟩

end Decoder

end PrimaryDex
