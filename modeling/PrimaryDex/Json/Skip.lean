import PrimaryDex.Json.NumberToken
import PrimaryDex.Json.StringToken

namespace PrimaryDex.Json.Reader

/-!
# Passing over values

`skipValue` passes over a value of any form and depth. What is still open is kept as a list of
brackets, the innermost first.
-/

/-- A list or an object. -/
inductive Bracket where
  | list
  | object
  deriving DecidableEq

/-- The end of a list or an object. -/
def Bracket.close : Bracket → Char
  | list => ']'
  | object => '\x7d'

/-- The text ends in a list or an object. -/
def Bracket.atEnd : Bracket → Problem
  | list => .endInList
  | object => .endInObject

/-- Something else than a separator follows in a list or an object. -/
def Bracket.noSeparator : Bracket → Problem
  | list => .noListSeparator
  | object => .noObjectSeparator

/-- The brackets that are open, and whether a value comes next or has just ended. -/
structure Position where
  isOpen : List Bracket
  beforeValue : Bool

/-- Consumes the colon behind a key. -/
def colon : Reader Unit := do
  match ← peekToken with
  | some ':' => advance
  | some _ => failNext .noColon
  | none => failNext .endInObject

/-- Passes over what stands in front of a value in a bracket, in an object a key and its colon. -/
def skipKey : Bracket → Reader Unit
  | .list => return
  | .object => do
    match ← peekToken with
    | some '"' =>
      advance
      skipString
      colon
    | some _ => failNext .keyNotString
    | none => failNext .endInObject

/-- Passes over the start of a bracket, and over all of it if it is empty. -/
def skipOpening (b : Bracket) (outer : List Bracket) : Reader Position := do
  advance
  match ← peekToken with
  | none => failNext b.atEnd
  | some c =>
    if c = b.close then
      advance
      return ⟨outer, false⟩
    else
      skipKey b
      return ⟨b :: outer, true⟩

/-- Passes over a value, but over a bracket only up to its first value. -/
def skipStart (isOpen : List Bracket) : Reader Position := do
  match ← peekToken with
  | none => failNext .endInValue
  | some '[' => skipOpening .list isOpen
  | some '\x7b' => skipOpening .object isOpen
  | some '"' =>
    advance
    skipString
    return ⟨isOpen, false⟩
  | some '-' =>
    advance
    skipNumber
    return ⟨isOpen, false⟩
  | some 'n' =>
    word "null".toList
    return ⟨isOpen, false⟩
  | some 't' =>
    word "true".toList
    return ⟨isOpen, false⟩
  | some 'f' =>
    word "false".toList
    return ⟨isOpen, false⟩
  | some c =>
    if !c.isDigit then failNext .noValue
    skipNumber
    return ⟨isOpen, false⟩

/-- Passes over a separator or the end of the innermost bracket. -/
def skipBehind (b : Bracket) (outer : List Bracket) : Reader Position := do
  match ← peekToken with
  | none => failNext b.atEnd
  | some c =>
    if c = ',' then
      advance
      skipKey b
      return ⟨b :: outer, true⟩
    else if c = b.close then
      advance
      return ⟨outer, false⟩
    else failNext b.noSeparator

/-- Goes on from a position, until a value has ended outside of all brackets. -/
def skipStep : Position → Reader (Option Position)
  | ⟨isOpen, true⟩ => some <$> skipStart isOpen
  | ⟨b :: outer, false⟩ => some <$> skipBehind b outer
  | ⟨[], false⟩ => return none

/-- Passes over a value. -/
def skipValue : Reader Unit :=
  discard («repeat» skipStep ⟨[], true⟩)

end PrimaryDex.Json.Reader
