import PrimaryDex.Text.Extending
import PrimaryDex.Text.Hex
import PrimaryDex.Text.Unprintable

namespace PrimaryDex.Text

/-!
# Quoted text

`quoted` shows a text between double quotes so that every character of it can be told: quotes,
backslashes and the common controls have short escapes, and what is unprintable, has no shape or
would join the character before it is written by its code point.
-/

/-- The letters that fill up a Hangul syllable and have no shape of their own. -/
def fillers : List Char := ['\u115f', '\u1160', '\u3164', '\uffa0']

/-- The extending characters that have a width of their own. -/
def soundMarks : List Char := ['\uff9e', '\uff9f']

/-- Whether a character can be told only from its code point. -/
def isHidden (c : Char) : Bool :=
  isUnprintable c || fillers.contains c || (isExtending c && !soundMarks.contains c)

/-- One character of a quoted text. -/
def escaped (c : Char) : List Char :=
  if c = '\x00' then ['\\', '0']
  else if c = '\t' then ['\\', 't']
  else if c = '\r' then ['\\', 'r']
  else if c = '\n' then ['\\', 'n']
  else if c = '"' || c = '\\' then ['\\', c]
  else if isHidden c then ['\\', 'u', '\x7b'] ++ hex 1 c.toNat ++ ['\x7d']
  else [c]

/-- The text in double quotes, with escapes. -/
def quoted (t : String) : String :=
  String.ofList ('"' :: t.toList.flatMap escaped ++ ['"'])

end PrimaryDex.Text
