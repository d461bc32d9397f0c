import PrimaryDex.Decimal.Binary

namespace PrimaryDex.Decimal

/-!
# Shortest decimals

`shortest` gives the decimal with the fewest digits that reads back as a given float, and of those
the one nearest to it. For one digit, two digits and so on it looks at the two neighbours of the
number on the grid of decimals with that many digits; the first grid that has a neighbour inside the
interval of reals that round to the float decides. `Tie` chooses between two that are equally near.
-/

/-- The number `coefficient * 10 ^ exponent`. -/
structure Scientific where
  coefficient : Nat
  exponent : Int
  deriving DecidableEq

/-- The number of decimal digits of `n`. -/
def digitCount (n : Nat) : Nat := (Nat.toDigits 10 n).length

/-- The exponent of the greatest power of ten that is at most `num / den`. -/
def magnitude (num den : Nat) : Int :=
  if den ≤ num then (digitCount (num / den) : Int) - 1
  else -(digitCount ((den + num - 1) / num - 1) : Int)

/-- A fraction times a power of ten. -/
def scaled (num den : Nat) (power : Int) : Nat × Nat :=
  (num * Nat.pow 10 power.toNat, den * Nat.pow 10 (-power).toNat)

/-- Which of two neighbours on a grid stands for a number halfway between them. -/
inductive Tie where
  | greater
  /-- The one whose last digit is even. -/
  | even
  deriving DecidableEq

/-- Whether the neighbour below, which is `floor` units of the grid, stands for the number halfway to
    the next one. -/
def Tie.goesDown (floor : Nat) : Tie → Bool
  | greater => false
  | even => floor % 2 == 0

/-- The neighbour of `b` on the grid of the multiples of `10 ^ (-power)` that rounds to `b`: the
    nearer one if both do. -/
def onGrid (tie : Tie) (b : Binary) (power : Int) : Option Scientific :=
  -- In quarters of the distance between floats, `b` is `value`.
  let value := 4 * b.mantissa
  let quarter := b.exponent - 2
  let (num, den) := scaled (Nat.pow 2 quarter.toNat) (Nat.pow 2 (-quarter).toNat) power
  let floor := value * num / den
  let least := (value - if b.tightBelow then 1 else 2) * num
  let greatest := (value + 2) * num
  let even := b.mantissa % 2 == 0
  let downRounds := least < floor * den || (even && least == floor * den)
  let upRounds := (floor + 1) * den < greatest || (even && (floor + 1) * den == greatest)
  let above := 2 * (value * num - floor * den)
  let downNearer := above < den || (above == den && tie.goesDown floor)
  if downRounds && (downNearer || !upRounds) then some ⟨floor, -power⟩
  else if upRounds then some ⟨floor + 1, -power⟩
  else none

/-- The decimal with the fewest digits that reads back as `b`. No format in use needs more than
    seventeen. -/
def shortest (tie : Tie) (b : Binary) : Scientific :=
  let top := magnitude (b.mantissa * Nat.pow 2 b.exponent.toNat) (Nat.pow 2 (-b.exponent).toNat)
  ((List.range 17).findSome? fun (n : Nat) => onGrid tie b (n - top)).getD ⟨0, 0⟩

end PrimaryDex.Decimal
