import PrimaryDex.Json.Reader

namespace PrimaryDex.Json.Reader

/-!
# Numbers

* `number` — the value of a number. A significand has at most sixty-four bits, and digits beyond
  those count as places only. What is no integer of sixty-four bits is the float next to the
  significand, times or by a power of ten;
* `skipNumber` — passes over a number, however great.
-/

/-- The greatest significand. -/
def maxSignificand : Nat := 0xffffffffffffffff

/-- How far integers go below zero. -/
def maxNegative : Nat := 0x8000000000000000

/-- The greatest exponent that is read. -/
def maxExponent : Nat := 0x7fffffff

/-- The exponent of the greatest power of ten that is a float. -/
def maxPower : Nat := 308

/-! ### Digits -/

/-- Whether a digit comes next. -/
def beforeDigit : Reader Bool := fun bytes => .ok (bytes.head?.any isDigit, bytes)

/-- The number that some digits write behind `n`, as long as it stays within `bound`; how many digits
    that takes, added to `count`; and what follows them. -/
def fitting (bound n count : Nat) : List UInt8 → (Nat × Nat) × List UInt8
  | [] => ((n, count), [])
  | b :: bytes =>
    let m := 10 * n + (b - 48).toNat
    if isDigit b && m ≤ bound then fitting bound m (count + 1) bytes else ((n, count), b :: bytes)

/-- Consumes the digits that keep the number behind `n` within `bound`, and counts them. -/
def numeral (bound n : Nat) : Reader (Nat × Nat) := fun bytes => .ok (fitting bound n 0 bytes)

/-! ### Values -/

/-- A float with a sign. -/
def signed (negative : Bool) (f : Float) : Float := if negative then -f else f

/-- The float next to a power of ten. -/
def powerOfTen (n : Nat) : Float := Float.ofScientific 1 false n

/-- A float by a power of ten. It is divided by the greatest one as often as that is needed, but
    zero stays what it is. -/
def divideByPower (f : Float) (n : Nat) : Float :=
  if maxPower < n then
    if f == 0 then f else divideByPower (f / powerOfTen maxPower) (n - maxPower)
  else f / powerOfTen n
termination_by n
decreasing_by
  have : 0 < maxPower := by decide
  omega

/-- The float at a significand times a power of ten, unless that is too great. -/
def scale (negative : Bool) (significand : Nat) (exponent : Int) : Reader Found := do
  let f := (UInt64.ofNat significand).toFloat
  let found (f : Float) : Found := .float (signed negative f).toBits.toNat
  if exponent < 0 then return found (divideByPower f exponent.natAbs)
  if f == 0 then return found f
  if maxPower < exponent.natAbs then fail .numberTooLarge
  let g := f * powerOfTen exponent.natAbs
  if g.isInf then fail .numberTooLarge
  return found g

/-- Consumes the sign of an exponent, and tells whether it is a minus. -/
def exponentSign : Reader Bool := do
  match ← peek with
  | some '-' =>
    advance
    return true
  | some '+' =>
    advance
    return false
  | _ => return false

/-- Consumes an exponent behind its `e` and scales by it. An exponent that is too great gives zero if
    it is negative or if the significand is zero. -/
def exponentPart (negative : Bool) (significand : Nat) (places : Int) : Reader Found := do
  let below ← exponentSign
  if (← peek).isNone then fail .endInValue
  if !(← beforeDigit) then failNext .badNumber
  let (n, _) ← numeral maxExponent 0
  if ← beforeDigit then
    if significand ≠ 0 ∧ !below then failNext .numberTooLarge
    let _ ← digits
    return .float (signed negative 0).toBits.toNat
  scale negative significand (if below then places - n else places + n)

/-- Goes on behind the digits of a number that has been written up to a power of ten. -/
def afterDigits (negative : Bool) (significand : Nat) (places : Int) : Reader Found := do
  match ← peek with
  | some 'e' | some 'E' =>
    advance
    exponentPart negative significand places
  | _ => scale negative significand places

/-- Consumes the digits behind a point and what follows them. -/
def fractionPart (negative : Bool) (significand : Nat) (places : Int) : Reader Found := do
  if (← peek).isNone then fail .endInValue
  if !(← beforeDigit) then failNext .badNumber
  let (significand, count) ← numeral maxSignificand significand
  let _ ← digits
  afterDigits negative significand (places - count)

/-- An integer. Zero with a sign and what has more than sixty-four bits are floats. -/
def integer (negative : Bool) (n : Nat) : Found :=
  if !negative then .integer n
  else if n = 0 ∨ maxNegative < n then .float (-(UInt64.ofNat n).toFloat).toBits.toNat
  else .integer (-n)

/-- Consumes a number behind its sign. -/
def number (negative : Bool) : Reader Found := do
  let first ← peek
  if first.isNone then fail .endInValue
  if !(← beforeDigit) then failNext .badNumber
  let (significand, _) ← if first = some '0' then advance *> pure (0, 1) else numeral maxSignificand 0
  if first = some '0' ∧ (← beforeDigit) then failNext .badNumber
  let places := (← digits).length
  match ← peek with
  | some '.' =>
    advance
    fractionPart negative significand places
  | some 'e' | some 'E' =>
    advance
    exponentPart negative significand places
  | _ =>
    if places = 0 then return integer negative significand else scale negative significand places

/-! ### Passing over -/

/-- Passes over digits, of which there must be one. -/
def skipDigits : Reader Unit := do
  if !(← beforeDigit) then failNext .badNumber
  discard digits

/-- Passes over an exponent, if there is one. -/
def skipExponent : Reader Unit := do
  match ← peek with
  | some 'e' | some 'E' =>
    advance
    discard exponentSign
    skipDigits
  | _ => return

/-- Passes over a number behind its sign. -/
def skipNumber : Reader Unit := do
  if (← peek) = some '0' then
    advance
    if ← beforeDigit then failNext .badNumber
  else skipDigits
  if (← peek) = some '.' then
    advance
    skipDigits
  skipExponent

end PrimaryDex.Json.Reader
