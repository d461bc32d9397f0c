import PrimaryDex.Text.Utf16

namespace PrimaryDex.Text.Utf8

/-!
# UTF-8

Bytes are cut into the encodings of characters and into faults, where a fault is the longest start of
an encoding that the next byte does not continue.

* `chunks` — the cut, with `none` for a fault;
* `decode?` — the text, if there is no fault;
* `decodeLossy` — the text with U+FFFD for each fault;
* `encode` — the bytes of a text.
-/

/-- Whether `b` lies between `lo` and `hi`. -/
def within (lo hi b : UInt8) : Bool := lo ≤ b && b ≤ hi

def isContinuation (b : UInt8) : Bool := within 0x80 0xbf b

/-- How many bytes follow the first byte `b`, and the least and greatest second byte, which keep out
    overlong forms, surrogates and all beyond U+10FFFF. -/
def shape? (b : UInt8) : Option (Nat × UInt8 × UInt8) :=
  if within 0xc2 0xdf b then some (1, 0x80, 0xbf)
  else if b = 0xe0 then some (2, 0xa0, 0xbf)
  else if b = 0xed then some (2, 0x80, 0x9f)
  else if within 0xe1 0xef b then some (2, 0x80, 0xbf)
  else if b = 0xf0 then some (3, 0x90, 0xbf)
  else if within 0xf1 0xf3 b then some (3, 0x80, 0xbf)
  else if b = 0xf4 then some (3, 0x80, 0x8f)
  else none

/-- The six payload bits of each continuation byte behind the leading bits `n`. -/
def payload (n : Nat) (bs : List UInt8) : Nat :=
  bs.foldl (fun n b => n * 64 + b.toNat % 64) n

/-- Reads one chunk that starts with `b`: its character or `none`, and how many bytes of `bs` belong
    to it. -/
def chunk (b : UInt8) (bs : List UInt8) : Option Char × Nat :=
  if b < 0x80 then (some (Char.ofNat b.toNat), 0)
  else match shape? b with
    | none => (none, 0)
    | some (more, lo, hi) =>
      match bs with
      | [] => (none, 0)
      | second :: rest =>
        if within lo hi second then
          let tail := (rest.take (more - 1)).takeWhile isContinuation
          if tail.length = more - 1 then
            -- The first byte has as many leading ones as the chunk has bytes.
            (some (Char.ofNat (payload (b.toNat % Nat.pow 2 (6 - more)) (second :: tail))), more)
          else (none, 1 + tail.length)
        else (none, 0)

/-- The chunks of some bytes in order, a fault as `none`. -/
def chunks : List UInt8 → List (Option Char)
  | [] => []
  | b :: bs => (chunk b bs).1 :: chunks (bs.drop (chunk b bs).2)
termination_by bs => bs.length
decreasing_by simp only [List.length_drop, List.length_cons]; omega

/-- The text that the bytes encode, if every chunk is a character. -/
def decode? (bs : List UInt8) : Option (List Char) :=
  (chunks bs).mapM id

/-- The text that the bytes encode, with U+FFFD for each fault. -/
def decodeLossy (bs : List UInt8) : List Char :=
  (chunks bs).map (·.getD Utf16.replacement)

/-- The bytes of a text. -/
def encode (t : List Char) : List UInt8 :=
  t.flatMap String.utf8EncodeChar

end PrimaryDex.Text.Utf8
