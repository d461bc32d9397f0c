import PrimaryDex.Text.Hex

namespace PrimaryDex.Json

/-!
# Writing JSON

* `Value` — what is written;
* `Value.pretty` — the text of a value, with each element and member on a line of its own.
-/

/-- A value to be written. -/
inductive Value where
  | number (n : Nat)
  | string (t : String)
  | list (elements : List Value)
  | object (members : List (String × Value))

/-- One character of a string. Quotes, backslashes and controls have escapes. -/
def escapedChar (c : Char) : List Char :=
  if c = '"' || c = '\\' then ['\\', c]
  else if c = '\x08' then ['\\', 'b']
  else if c = '\x0c' then ['\\', 'f']
  else if c = '\n' then ['\\', 'n']
  else if c = '\r' then ['\\', 'r']
  else if c = '\t' then ['\\', 't']
  else if c < ' ' then '\\' :: 'u' :: Text.hex 4 c.toNat
  else [c]

/-- A string in quotes. -/
def stringText (t : String) : String :=
  String.ofList ('"' :: t.toList.flatMap escapedChar ++ ['"'])

/-- Lines between two brackets, each one step further in than these. -/
def bracketed (start stop indent : String) (lines : List String) : String :=
  if lines.isEmpty then start ++ stop
  else
    let inner := "\n" ++ indent ++ "  "
    start ++ inner ++ ("," ++ inner).intercalate lines ++ "\n" ++ indent ++ stop

namespace Value

mutual

/-- The text of a value inside of lines that start with `indent`. -/
def textWithin (indent : String) : Value → String
  | number n => toString n
  | string t => stringText t
  | list elements => bracketed "[" "]" indent (elementTexts (indent ++ "  ") elements)
  | object members => bracketed "\x7b" "\x7d" indent (memberTexts (indent ++ "  ") members)

/-- The texts of some elements. -/
def elementTexts (indent : String) : List Value → List String
  | [] => []
  | v :: vs => v.textWithin indent :: elementTexts indent vs

/-- The texts of some members. -/
def memberTexts (indent : String) : List (String × Value) → List String
  | [] => []
  | (key, v) :: ms => (stringText key ++ ": " ++ v.textWithin indent) :: memberTexts indent ms

end

/-- The text of a value. -/
def pretty (v : Value) : String := v.textWithin ""

end Value

end PrimaryDex.Json
