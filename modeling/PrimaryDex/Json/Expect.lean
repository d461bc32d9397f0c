import PrimaryDex.Json.Skip

namespace PrimaryDex.Json.Reader

/-!
# Expecting values

Readers of values whose type is known beforehand. What starts like a value of another type is read
as far as it takes to tell what it is.

* `text`, `null`, `optional`, `choice` — single values;
* `listOf`, `element` — lists, and one element of a list whose elements differ in type;
* `members` — the members of an object, each of which the caller reads by its key.
-/

variable {α σ : Type}

/-! ### Single values -/

/-- Reads enough of a value to tell what it is. -/
def found : Reader Found := do
  match ← peek with
  | some 'n' =>
    word "null".toList
    return .null
  | some 't' =>
    word "true".toList
    return .boolean true
  | some 'f' =>
    word "false".toList
    return .boolean false
  | some '-' =>
    advance
    number true
  | some '"' =>
    advance
    .string <$> string
  | some '[' => return .list
  | some '\x7b' => return .object
  | _ => if ← beforeDigit then number false else failNext .noValue

/-- Refuses a value of another type than `expected`. -/
def refuse (expected : String) : Reader α := do
  fail (.wrongType (← found) expected)

/-- Reads a value that starts with the character `start`, or refuses it. -/
def starting (start : Char) (expected : String) (r : Reader α) : Reader α := do
  match ← peekToken with
  | none => failNext .endInValue
  | some c =>
    if c = start then
      advance
      r
    else refuse expected

/-- Reads a string. -/
def text (expected : String) : Reader String := starting '"' expected string

/-- Reads the value that stands for nothing. -/
def null (expected : String) : Reader Unit := starting 'n' expected (word "ull".toList)

/-- Reads a value or `null`. -/
def optional (r : Reader α) : Reader (Option α) := do
  if (← peekToken) = some 'n' then
    word "null".toList
    return none
  else some <$> r

/-- Reads a string that names one of some choices. -/
def choiceText (choices : List (String × α)) : Reader α := do
  let t ← text "variant identifier"
  match choices.lookup t with
  | some a => return a
  | none => fail (.unknownChoice t (choices.map (·.1)))

/-- Reads a choice that is the key of an object. -/
def choiceKey (choices : List (String × α)) : Reader α := do
  match ← peekToken with
  | none => failNext .endInObject
  | some '"' => choiceText choices
  | some '\x7d' => failNext .noValue
  | some _ => failNext .keyNotString

/-- Reads a choice, which is a string or an object that has it as its only key, with the value
    `null`. -/
def choice (choices : List (String × α)) : Reader α := do
  match ← peekToken with
  | none => failNext .endInValue
  | some '"' => choiceText choices
  | some '\x7b' =>
    advance
    let a ← choiceKey choices
    colon
    null "unit"
    match ← peekToken with
    | some '\x7d' =>
      advance
      return a
    | some _ => fail .noValue
    | none => fail .endInObject
  | some _ => failNext .noValue

/-! ### Lists -/

/-- Goes to the next element of a list, if there is one. -/
def toElement (isFirst : Bool) : Reader Bool := do
  match ← peekToken with
  | none => failNext .endInList
  | some ']' => return false
  | some c =>
    if isFirst then return true
    if c ≠ ',' then failNext .noListSeparator
    advance
    match ← peekToken with
    | none => failNext .endInValue
    | some ']' => failNext .commaAtEnd
    | some _ => return true

/-- Reads the next element of a list, if there is one. -/
def element (isFirst : Bool) (r : Reader α) : Reader (Option α) := do
  if ← toElement isFirst then some <$> r else return none

/-- Leaves a list behind its last element. -/
def listEnd : Reader Unit := do
  match ← peekToken with
  | none => failNext .endInList
  | some ']' => advance
  | some ',' =>
    advance
    if (← peekToken) = some ']' then failNext .commaAtEnd else failNext .moreText
  | some _ => failNext .moreText

/-- Reads an element behind those in `done`, the latest first. -/
def listStep (r : Reader α) (done : List α) : Reader (Option (List α)) := do
  return (← element done.isEmpty r).map (· :: done)

/-- Reads a list of values of one type. -/
def listOf (expected : String) (r : Reader α) : Reader (List α) :=
  starting '[' expected do
    let done ← «repeat» (listStep r) []
    listEnd
    return done.reverse

/-! ### Objects -/

/-- Reads the next key of an object, if there is one. -/
def key (isFirst : Bool) : Reader (Option String) := do
  match ← peekToken with
  | none => failNext .endInObject
  | some '\x7d' => return none
  | some c =>
    if !isFirst then
      if c ≠ ',' then failNext .noObjectSeparator
      advance
    match ← peekToken with
    | none => failNext .endInValue
    | some '"' =>
      advance
      some <$> string
    | some '\x7d' => failNext .commaAtEnd
    | some _ => failNext .keyNotString

/-- A fault behind a key. Its place is behind the object if that ends here. -/
def failBehindKey (p : Problem) : Reader α := do
  if (← peekToken) = some '\x7d' then advance
  fail p

/-- Reads a member into what the members before it gave. The reader of its value is chosen by its key,
    and a key that is a fault has none. -/
def memberStep (value : String → σ → Except Problem (Reader σ)) (st : Bool × σ) :
    Reader (Option (Bool × σ)) := do
  let (isFirst, s) := st
  match ← key isFirst with
  | none => return none
  | some k =>
    match value k s with
    | .error p => failBehindKey p
    | .ok r =>
      colon
      return some (false, ← r)

/-- Reads the members of an object behind its brace. -/
def members (value : String → σ → Except Problem (Reader σ)) (s : σ) : Reader σ := do
  let (_, s) ← «repeat» (memberStep value) (true, s)
  advance
  return s

end PrimaryDex.Json.Reader
