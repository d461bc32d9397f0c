import PrimaryDex.Json.Problem
import PrimaryDex.Text.Utf8

namespace PrimaryDex.Json

/-!
# Reading JSON

A `Reader` consumes the bytes of a text from the front and stops at the first fault.

* `Fault` — a fault with the bytes behind its place, and `Error` — one with its line and column;
* `Reader.fail`, `Reader.failNext` — a fault where the reader stands, or behind the next byte;
* `Reader.repeat` — takes steps as long as one is wanted;
* `Reader.read` — reads a whole text.
-/

/-- A fault and the bytes behind its place. -/
structure Fault where
  problem : Problem
  rest : List UInt8

/-- A fault and its place, a line from one on and a column that counts the bytes before it. -/
structure Error where
  problem : Problem
  line : Nat
  column : Nat
  deriving DecidableEq

/-- The wording of a fault and its place. -/
def Error.message (e : Error) : String :=
  s!"{e.problem.message} at line {e.line} column {e.column}"

def newline : UInt8 := 10

/-- Finds the line and column of a fault of `text`. -/
def Fault.located (f : Fault) (text : List UInt8) : Error :=
  let before := text.take (text.length - f.rest.length)
  ⟨f.problem, before.count newline + 1, (before.reverse.takeWhile (· != newline)).length⟩

/-- A reader of the front of some bytes. -/
abbrev Reader := StateT (List UInt8) (Except Fault)

namespace Reader

variable {α σ : Type}

/-- The next byte as an ASCII character. Other bytes are beyond those. -/
def peek : Reader (Option Char) := fun bytes => .ok (bytes.head?.map Char.ofUInt8, bytes)

/-- Skips the next byte. -/
def advance : Reader Unit := fun bytes => .ok ((), bytes.tail)

/-- Consumes the next byte. -/
def next : Reader (Option Char) := fun bytes => .ok (bytes.head?.map Char.ofUInt8, bytes.tail)

/-- A fault where the reader stands. -/
def fail (p : Problem) : Reader α := fun bytes => .error ⟨p, bytes⟩

/-- A fault behind the next byte, or at the end. -/
def failNext (p : Problem) : Reader α := fun bytes => .error ⟨p, bytes.tail⟩

/-- What may stand between the tokens of a text. -/
def isBlank (b : UInt8) : Bool := b == 32 || b == newline || b == 9 || b == 13

/-- Skips blanks and looks at the byte behind them. -/
def peekToken : Reader (Option Char) := fun bytes => peek (bytes.dropWhile isBlank)

/-- Whether a byte is a decimal digit. -/
def isDigit (b : UInt8) : Bool := 48 ≤ b && b ≤ 57

/-- Consumes all digits that come next. -/
def digits : Reader (List UInt8) := fun bytes => .ok (bytes.takeWhile isDigit, bytes.dropWhile isDigit)

/-- Consumes the rest of a word. -/
def word : List Char → Reader Unit
  | [] => return
  | c :: cs => do
    match ← next with
    | none => fail .endInValue
    | some d => if d = c then word cs else fail .noWord

/-- Takes at most `count` steps, until one gives no further state. -/
def steps (step : σ → Reader (Option σ)) : Nat → σ → Reader σ
  | 0, s => return s
  | count + 1, s => do
    match ← step s with
    | none => return s
    | some s => steps step count s

/-- Takes steps until one gives no further state. Each that does consumes a byte or more, so that
    there are not more of them than bytes. -/
def «repeat» (step : σ → Reader (Option σ)) (s : σ) : Reader σ := fun bytes =>
  steps step (bytes.length + 1) s bytes

/-- Reads a whole text, which ends with blanks only. -/
def read (r : Reader α) (text : String) : Except Error α :=
  let whole : Reader α := do
    let a ← r
    match ← peekToken with
    | none => return a
    | some _ => failNext .moreText
  let bytes := Text.Utf8.encode text.toList
  match whole bytes with
  | .ok (a, _) => .ok a
  | .error f => .error (f.located bytes)

end Reader

end PrimaryDex.Json
