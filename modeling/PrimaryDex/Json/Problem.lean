import PrimaryDex.Decimal.Layout
import PrimaryDex.Text.Quoted

namespace PrimaryDex.Json

/-!
# What can be wrong with a JSON text

* `Found` — what stands where something else is expected;
* `Problem` — a fault of a text, which breaks the grammar or does not have the expected form;
* `Problem.message` — its wording.
-/

/-- What a value is, as far as a reader of another type tells it. -/
inductive Found where
  | null
  | boolean (value : Bool)
  | integer (value : Int)
  /-- A number with a fraction or an exponent, or one beyond sixty-four bits. -/
  | float (bits : Nat)
  | string (value : String)
  | list
  | object
  deriving DecidableEq

/-- Floats are positional from `0.00001` up to sixteen digits before the point, and of two decimals
    equally near the even one is written. -/
def floatLayout : Decimal.Layout where
  leastPositional := -5
  greatestPositional := 15
  tie := .even
  plusSign := true
  infinity := "inf"
  notANumber := "NaN"

/-- The wording of a value. -/
def Found.message : Found → String
  | null => "null"
  | boolean value => s!"boolean `{value}`"
  | integer value => s!"integer `{value}`"
  | float bits => s!"floating point `{floatLayout.text .double bits}`"
  | string value => s!"string {Text.quoted value}"
  | list => "sequence"
  | object => "map"

/-- A fault of a text. -/
inductive Problem where
  | endInList
  | endInObject
  | endInString
  | endInValue
  | noColon
  /-- Neither a comma nor the end of the list comes behind an element. -/
  | noListSeparator
  /-- Neither a comma nor the end of the object comes behind a member. -/
  | noObjectSeparator
  /-- What starts like `null`, `true` or `false` does not go on so. -/
  | noWord
  | noValue
  | badEscape
  | badNumber
  | numberTooLarge
  | controlCharacter
  | keyNotString
  /-- An escaped surrogate is not the first or not the second one of a pair. -/
  | loneSurrogate
  /-- The first surrogate of a pair is not followed by an escape. -/
  | noSecondSurrogate
  | commaAtEnd
  | moreText
  | wrongType (found : Found) (expected : String)
  | unknownChoice (found : String) (choices : List String)
  | repeatedKey (key : String)
  deriving DecidableEq

/-- The wording of some choices. -/
def choiceMessage (choices : List String) : String :=
  " or ".intercalate (choices.map fun choice => s!"`{choice}`")

/-- The wording of a fault. -/
def Problem.message : Problem → String
  | endInList => "EOF while parsing a list"
  | endInObject => "EOF while parsing an object"
  | endInString => "EOF while parsing a string"
  | endInValue => "EOF while parsing a value"
  | noColon => "expected `:`"
  | noListSeparator => "expected `,` or `]`"
  | noObjectSeparator => "expected `,` or `\x7d`"
  | noWord => "expected ident"
  | noValue => "expected value"
  | badEscape => "invalid escape"
  | badNumber => "invalid number"
  | numberTooLarge => "number out of range"
  | controlCharacter => "control character (\\u0000-\\u001F) found while parsing a string"
  | keyNotString => "key must be a string"
  | loneSurrogate => "lone leading surrogate in hex escape"
  | noSecondSurrogate => "unexpected end of hex escape"
  | commaAtEnd => "trailing comma"
  | moreText => "trailing characters"
  | wrongType found expected => s!"invalid type: {found.message}, expected {expected}"
  | unknownChoice found choices =>
    s!"unknown variant `{found}`, expected {choiceMessage choices}"
  | repeatedKey key => s!"duplicate field `{key}`"

end PrimaryDex.Json
