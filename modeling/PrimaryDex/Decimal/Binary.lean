namespace PrimaryDex.Decimal

/-!
# Binary floating point

A format has a number of fraction bits and of exponent bits (`Format.single`, `Format.double`), and
`Format.decode` reads the bits of a float as a sign and a `Magnitude`.
-/

/-- The positive number `mantissa * 2 ^ exponent`. -/
structure Binary where
  mantissa : Nat
  exponent : Int
  /-- Whether the next smaller float is half as far away as the next greater one, which is so at a
      power of two. -/
  tightBelow : Bool
  deriving DecidableEq

/-- What a float is apart from its sign. -/
inductive Magnitude where
  | zero
  | finite (value : Binary)
  | infinite
  | notANumber
  deriving DecidableEq

/-- The widths of the two fields behind the sign bit. -/
structure Format where
  fractionBits : Nat
  exponentBits : Nat

/-- Floats of thirty-two bits. -/
def Format.single : Format := ⟨23, 8⟩

/-- Floats of sixty-four bits. -/
def Format.double : Format := ⟨52, 11⟩

/-- What is taken from the exponent field. -/
def Format.bias (f : Format) : Nat := Nat.pow 2 (f.exponentBits - 1) - 1

/-- Whether the sign bit is set, and the magnitude. -/
def Format.decode (f : Format) (bits : Nat) : Bool × Magnitude :=
  let fractionRange := Nat.pow 2 f.fractionBits
  let exponentRange := Nat.pow 2 f.exponentBits
  let fraction := bits % fractionRange
  let exponent := bits / fractionRange % exponentRange
  let negative := bits / (fractionRange * exponentRange) % 2 == 1
  let magnitude : Magnitude :=
    if exponent = exponentRange - 1 then
      if fraction = 0 then .infinite else .notANumber
    else if exponent = 0 then
      -- Without a hidden bit the exponent is that of the least normal number.
      if fraction = 0 then .zero
      else .finite ⟨fraction, 1 - f.bias - f.fractionBits, false⟩
    else
      .finite ⟨fractionRange + fraction, exponent - f.bias - f.fractionBits, fraction = 0⟩
  (negative, magnitude)

end PrimaryDex.Decimal
