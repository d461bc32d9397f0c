import PrimaryDex.Json.Reader
import PrimaryDex.Text.Utf16

namespace PrimaryDex.Json.Reader

open Text.Utf16

/-!
# Strings

The opening quote of a string is consumed already when these readers start.

* `string` — the text of a string, whose escapes must write characters;
* `skipString` — passes over a string, whose escapes need only have the right form.
-/

/-- What an escape with one character writes. -/
def escape? (c : Char) : Option Char :=
  match c with
  | '"' => some '"'
  | '\\' => some '\\'
  | '/' => some '/'
  | 'b' => some '\x08'
  | 'f' => some '\x0c'
  | 'n' => some '\n'
  | 'r' => some '\r'
  | 't' => some '\t'
  | _ => none

/-- The value of a hexadecimal digit. -/
def hexDigit? (b : UInt8) : Option UInt16 :=
  if isDigit b then some (b - 48).toUInt16
  else if 97 ≤ b && b ≤ 102 then some (b - 87).toUInt16
  else if 65 ≤ b && b ≤ 70 then some (b - 55).toUInt16
  else none

/-- Consumes the four digits of an escaped code unit. -/
def codeUnit : Reader UInt16 := fun bytes =>
  match bytes with
  | a :: b :: c :: d :: rest =>
    match [a, b, c, d].mapM hexDigit? with
    | some ds => .ok (ds.foldl (fun n d => n <<< 4 ||| d) 0, rest)
    | none => .error ⟨.badEscape, rest⟩
  | _ => .error ⟨.endInString, []⟩

/-- Consumes the start of the escape that a first surrogate needs behind it. -/
def secondStart (c : Char) : Reader Unit := do
  match ← next with
  | none => fail .endInString
  | some d => if d = c then return else fail .noSecondSurrogate

/-- Consumes the digits of an escaped character, and the escape of the second surrogate if the first
    one is a surrogate. -/
def codePoint : Reader Char := do
  let unit ← codeUnit
  if isLow unit then fail .loneSurrogate
  if !isHigh unit then return single unit
  secondStart '\\'
  secondStart 'u'
  let second ← codeUnit
  if isLow second then return paired unit second else fail .loneSurrogate

/-- Consumes an escape behind its backslash. -/
def escape : Reader Char := do
  match ← next with
  | none => fail .endInString
  | some 'u' => codePoint
  | some c =>
    match escape? c with
    | some d => return d
    | none => fail .badEscape

/-- Whether a byte stands for itself in a string. -/
def isPlain (b : UInt8) : Bool := 32 ≤ b && b != 34 && b != 92

/-- Consumes the bytes up to the next quote, backslash or control character. -/
def plain : Reader (List UInt8) := fun bytes => .ok (bytes.takeWhile isPlain, bytes.dropWhile isPlain)

/-- Consumes one part of a string behind those in `parts`, or gives nothing at its end. -/
def stringPart (parts : List (List UInt8)) : Reader (Option (List (List UInt8))) := do
  match ← peek with
  | none => fail .endInString
  | some '"' => return none
  | some '\\' =>
    advance
    let c ← escape
    return some (String.utf8EncodeChar c :: parts)
  | some c => if c < ' ' then failNext .controlCharacter else return some ((← plain) :: parts)

/-- Consumes a string with its closing quote. -/
def string : Reader String := do
  let parts ← «repeat» stringPart []
  advance
  return String.ofList (Text.Utf8.decodeLossy parts.reverse.flatten)

/-- Passes over an escape behind its backslash. -/
def skipEscape : Reader Unit := do
  match ← next with
  | none => fail .endInString
  | some 'u' => discard codeUnit
  | some c => if (escape? c).isNone then fail .badEscape

/-- Passes over one part of a string. -/
def skipPart (_ : Unit) : Reader (Option Unit) := do
  match ← peek with
  | none => fail .endInString
  | some '"' => return none
  | some '\\' =>
    advance
    some <$> skipEscape
  | some c => if c < ' ' then fail .controlCharacter else some <$> discard plain

/-- Passes over a string and its closing quote. -/
def skipString : Reader Unit := do
  «repeat» skipPart ()
  advance

end PrimaryDex.Json.Reader
