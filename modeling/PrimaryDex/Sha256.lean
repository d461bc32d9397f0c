import PrimaryDex.Text.Hex

namespace PrimaryDex.Sha256

/-!
# SHA-256

* `pad` — brings a message to a multiple of sixty-four bytes;
* `digest` — the eight words of the hash of some bytes;
* `hexDigest` — the hash of a text's UTF-8 bytes in hexadecimal digits.
-/

/-! ### Words -/

/-- Rotation to the right. -/
def rotate (n x : UInt32) : UInt32 := x >>> n ||| x <<< (32 - n)

def choose (x y z : UInt32) : UInt32 := (x &&& y) ^^^ (~~~x &&& z)

def majority (x y z : UInt32) : UInt32 := (x &&& y) ^^^ (x &&& z) ^^^ (y &&& z)

def bigSigma0 (x : UInt32) : UInt32 := rotate 2 x ^^^ rotate 13 x ^^^ rotate 22 x

def bigSigma1 (x : UInt32) : UInt32 := rotate 6 x ^^^ rotate 11 x ^^^ rotate 25 x

def smallSigma0 (x : UInt32) : UInt32 := rotate 7 x ^^^ rotate 18 x ^^^ x >>> 3

def smallSigma1 (x : UInt32) : UInt32 := rotate 17 x ^^^ rotate 19 x ^^^ x >>> 10

/-- The first thirty-two bits of the fractional parts of the cube roots of the first sixty-four
    primes. -/
def roundConstants : List UInt32 := [
  0x428a2f98, 0x71374491, 0xb5c0fbcf, 0xe9b5dba5, 0x3956c25b, 0x59f111f1, 0x923f82a4, 0xab1c5ed5,
  0xd807aa98, 0x12835b01, 0x243185be, 0x550c7dc3, 0x72be5d74, 0x80deb1fe, 0x9bdc06a7, 0xc19bf174,
  0xe49b69c1, 0xefbe4786, 0x0fc19dc6, 0x240ca1cc, 0x2de92c6f, 0x4a7484aa, 0x5cb0a9dc, 0x76f988da,
  0x983e5152, 0xa831c66d, 0xb00327c8, 0xbf597fc7, 0xc6e00bf3, 0xd5a79147, 0x06ca6351, 0x14292967,
  0x27b70a85, 0x2e1b2138, 0x4d2c6dfc, 0x53380d13, 0x650a7354, 0x766a0abb, 0x81c2c92e, 0x92722c85,
  0xa2bfe8a1, 0xa81a664b, 0xc24b8b70, 0xc76c51a3, 0xd192e819, 0xd6990624, 0xf40e3585, 0x106aa070,
  0x19a4c116, 0x1e376c08, 0x2748774c, 0x34b0bcb5, 0x391c0cb3, 0x4ed8aa4a, 0x5b9cca4f, 0x682e6ff3,
  0x748f82ee, 0x78a5636f, 0x84c87814, 0x8cc70208, 0x90befffa, 0xa4506ceb, 0xbef9a3f7, 0xc67178f2]

/-! ### Blocks -/

/-- The eight words that are worked on. -/
structure State where
  a : UInt32
  b : UInt32
  c : UInt32
  d : UInt32
  e : UInt32
  f : UInt32
  g : UInt32
  h : UInt32
  deriving DecidableEq

/-- The first thirty-two bits of the fractional parts of the square roots of the first eight
    primes. -/
def State.initial : State :=
  ⟨0x6a09e667, 0xbb67ae85, 0x3c6ef372, 0xa54ff53a,
    0x510e527f, 0x9b05688c, 0x1f83d9ab, 0x5be0cd19⟩

/-- The words of a state in order. -/
def State.words (s : State) : List UInt32 := [s.a, s.b, s.c, s.d, s.e, s.f, s.g, s.h]

/-- Word-wise sum. -/
def State.add (s t : State) : State :=
  ⟨s.a + t.a, s.b + t.b, s.c + t.c, s.d + t.d, s.e + t.e, s.f + t.f, s.g + t.g, s.h + t.h⟩

/-- One round with its constant `k` and the scheduled word `w`. -/
def State.round (s : State) (k w : UInt32) : State :=
  let t1 := s.h + bigSigma1 s.e + choose s.e s.f s.g + k + w
  let t2 := bigSigma0 s.a + majority s.a s.b s.c
  ⟨t1 + t2, s.a, s.b, s.c, s.d + t1, s.e, s.f, s.g⟩

/-- The big-endian words of some bytes. -/
def wordsOf : List UInt8 → List UInt32
  | p :: q :: r :: s :: rest =>
    (p.toUInt32 <<< 24 ||| q.toUInt32 <<< 16 ||| r.toUInt32 <<< 8 ||| s.toUInt32) :: wordsOf rest
  | _ => []

/-- The word that follows those scheduled so far. -/
def scheduleNext (w : Array UInt32) : UInt32 :=
  let back (n : Nat) := w.getD (w.size - n) 0
  smallSigma1 (back 2) + back 7 + smallSigma0 (back 15) + back 16

/-- The sixty-four words of a block. -/
def schedule (block : List UInt8) : Array UInt32 :=
  (List.range 48).foldl (fun w _ => w.push (scheduleNext w)) (wordsOf block).toArray

/-- Works a block into the state. -/
def State.absorb (s : State) (block : List UInt8) : State :=
  s.add ((roundConstants.zip (schedule block).toList).foldl (fun t (k, w) => t.round k w) s)

/-! ### Messages -/

/-- The eight bytes of the length in bits. -/
def lengthBytes (bytes : Nat) : List UInt8 :=
  (List.range 8).map fun i => UInt8.ofNat (bytes * 8 / Nat.pow 256 (7 - i))

/-- The message with a one bit, as many zeros as needed, and its length. -/
def pad (message : List UInt8) : List UInt8 :=
  message ++ 0x80 :: List.replicate ((119 - message.length % 64) % 64) 0
    ++ lengthBytes message.length

/-- Works all blocks of a padded message into the state. -/
def State.absorbAll (s : State) (bytes : List UInt8) : State :=
  if h : bytes = [] then s
  else
    have : 0 < bytes.length := List.length_pos_iff.2 h
    (s.absorb (bytes.take 64)).absorbAll (bytes.drop 64)
termination_by bytes.length
decreasing_by simp only [List.length_drop]; omega

/-- The hash of some bytes. -/
def digest (message : List UInt8) : List UInt32 :=
  (State.initial.absorbAll (pad message)).words

/-- The hash of the UTF-8 bytes of a text. -/
def hexDigest (t : String) : String :=
  String.ofList ((digest t.toUTF8.data.toList).flatMap fun w => Text.hex 8 w.toNat)

end PrimaryDex.Sha256
