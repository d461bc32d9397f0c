namespace PrimaryDex.Text

/-!
# Blank characters

* `isBlank` — the characters with the Unicode property `White_Space`;
* `trim` — a text without the blanks at its two ends.
-/

/-- The twenty-five characters of the property `White_Space`. -/
def isBlank (c : Char) : Bool :=
  let n := c.toNat
  (0x09 ≤ n && n ≤ 0x0d) || n == 0x20 || n == 0x85 || n == 0xa0 || n == 0x1680
    || (0x2000 ≤ n && n ≤ 0x200a) || n == 0x2028 || n == 0x2029 || n == 0x202f || n == 0x205f
    || n == 0x3000

/-- The text without the blanks before its first other character. -/
def trimStart (t : List Char) : List Char :=
  t.dropWhile isBlank

/-- The text without the blanks after its last other character. -/
def trimEnd (t : List Char) : List Char :=
  (t.reverse.dropWhile isBlank).reverse

/-- The text without the blanks before its first and after its last other character. -/
def trim (t : List Char) : List Char :=
  trimEnd (trimStart t)

end PrimaryDex.Text
