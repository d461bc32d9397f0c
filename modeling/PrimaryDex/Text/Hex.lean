namespace PrimaryDex.Text

/-!
# Hexadecimal digits

`hex` writes a number with lowercase digits and at least a given number of places.
-/

/-- The lowercase hexadecimal digits of `n`, with zeros in front up to `width` places. -/
def hex (width n : Nat) : List Char :=
  let digits := Nat.toDigits 16 n
  List.replicate (width - digits.length) '0' ++ digits

end PrimaryDex.Text
