import PrimaryDex.Decimal.Shortest

namespace PrimaryDex.Decimal

/-!
# The text of a float

`Layout` holds what a text of floats may decide for itself, and `Layout.text` writes the bits of a
float accordingly.
-/

/-- How floats are written. -/
structure Layout where
  /-- The least power of ten of a leading digit that is written without an exponent. -/
  leastPositional : Int
  /-- The greatest such power. -/
  greatestPositional : Int
  tie : Tie
  /-- Whether a positive exponent has a sign. -/
  plusSign : Bool
  infinity : String
  notANumber : String

/-- The digits of a coefficient without the zeros at its end. -/
def significant (coefficient : Nat) : List Char :=
  ((Nat.toDigits 10 coefficient).reverse.dropWhile (· == '0')).reverse

/-- The digits before and after a point that has `before` digits in front of it, each side with at
    least one digit. -/
def withPoint (digits : List Char) (before : Int) : List Char :=
  let whole := digits.take before.toNat
  let whole := whole ++ List.replicate (before.toNat - whole.length) '0'
  let fraction := List.replicate (-before).toNat '0' ++ digits.drop before.toNat
  (if whole.isEmpty then ['0'] else whole) ++ '.' :: (if fraction.isEmpty then ['0'] else fraction)

/-- One digit, a point if more follow, the others, and the power of ten. -/
def withExponent (plusSign : Bool) (digits : List Char) (power : Int) : List Char :=
  let mantissa := match digits with
    | first :: second :: rest => first :: '.' :: second :: rest
    | _ => digits
  mantissa ++ 'e' :: (if plusSign && 0 ≤ power then ['+'] else []) ++ (toString power).toList

/-- The text of a number without its sign. -/
def Layout.magnitudeText (l : Layout) : Magnitude → String
  | .zero => "0.0"
  | .infinite => l.infinity
  | .notANumber => l.notANumber
  | .finite b =>
    let d := shortest l.tie b
    let power := d.exponent + digitCount d.coefficient - 1
    let digits := significant d.coefficient
    String.ofList <|
      if l.leastPositional ≤ power ∧ power ≤ l.greatestPositional then withPoint digits (power + 1)
      else withExponent l.plusSign digits power

/-- The text of the float with the given bits. A number that is none has no sign. -/
def Layout.text (l : Layout) (f : Format) (bits : Nat) : String :=
  let (negative, magnitude) := f.decode bits
  (if negative && magnitude != .notANumber then "-" else "") ++ l.magnitudeText magnitude

end PrimaryDex.Decimal
