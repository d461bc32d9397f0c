import PrimaryDex.Zip.PrefixCode

namespace PrimaryDex.Zip

/-!
# Expanding compressed data

Deflated data is a row of blocks, each stored as it is or compressed with two prefix codes: one for
literal bytes and the lengths of repetitions, one for their distances.

* `readItem` — one literal or repetition;
* `readHeader` — the start of a block, with its codes;
* `inflate` — the expanded data. What follows the last block does not count, and the data is thought
  to be preceded by zeros, where repetitions may reach.
-/

/-! ### Items -/

/-- What a compressed block is made of. -/
inductive Item where
  | literal (byte : UInt8)
  | repetition (length distance : Nat)
  | stop

/-- The least length of each length symbol from 257 on, and how many bits are added to it. -/
def lengthTable : Array (Nat × Nat) := #[
  (3, 0), (4, 0), (5, 0), (6, 0), (7, 0), (8, 0), (9, 0), (10, 0), (11, 1), (13, 1), (15, 1), (17, 1),
  (19, 2), (23, 2), (27, 2), (31, 2), (35, 3), (43, 3), (51, 3), (59, 3), (67, 4), (83, 4), (99, 4),
  (115, 4), (131, 5), (163, 5), (195, 5), (227, 5), (258, 0)]

/-- The least distance of each distance symbol, and how many bits are added to it. -/
def distanceTable : Array (Nat × Nat) := #[
  (1, 0), (2, 0), (3, 0), (4, 0), (5, 1), (7, 1), (9, 2), (13, 2), (17, 3), (25, 3), (33, 4), (49, 4),
  (65, 5), (97, 5), (129, 6), (193, 6), (257, 7), (385, 7), (513, 8), (769, 8), (1025, 9), (1537, 9),
  (2049, 10), (3073, 10), (4097, 11), (6145, 11), (8193, 12), (12289, 12), (16385, 13), (24577, 13)]

/-- The value of a symbol: its least value and the bits that follow it. -/
def readValue (table : Array (Nat × Nat)) (symbol : Nat) : BitReader Nat :=
  match table[symbol]? with
  | some (least, bits) => do return least + (← .number bits)
  | none => .fail .corrupt

/-- Reads one item of a compressed block. -/
def readItem (literals distances : PrefixCode) : BitReader Item := do
  let symbol ← literals.read
  if symbol < 256 then return .literal (UInt8.ofNat symbol)
  else if symbol = 256 then return .stop
  else
    let length ← readValue lengthTable (symbol - 257)
    let distance ← readValue distanceTable (← distances.read)
    return .repetition length distance

/-- Reading an item uses up bits. -/
theorem strict_readItem (literals distances : PrefixCode) :
    (readItem literals distances).Strict :=
  BitReader.Strict.bind (PrefixCode.strict_read literals) _

/-- Appends `length` bytes, each a copy of the one `distance` back. -/
def repeatBack (distance : Nat) : Nat → ByteArray → ByteArray
  | 0, out => out
  | length + 1, out =>
    let byte := if h : out.size - distance < out.size then
        if distance ≤ out.size then out[out.size - distance] else 0
      else 0
    repeatBack distance length (out.push byte)

/-- Expands a compressed block behind what there is in `out`. -/
def expandItems (literals distances : PrefixCode) (s : Bits) (out : ByteArray) :
    Except InflateError (ByteArray × Bits) :=
  match _h : (readItem literals distances).run s with
  | .error e => .error e
  | .ok (.stop, t) => .ok (out, t)
  | .ok (.literal byte, t) => expandItems literals distances t (out.push byte)
  | .ok (.repetition length distance, t) =>
    expandItems literals distances t (repeatBack distance length out)
termination_by s.size
decreasing_by all_goals exact strict_readItem literals distances _h

/-- Expanding items uses up no more bits than there are. -/
theorem size_expandItems {literals distances : PrefixCode} {s t : Bits} {out result : ByteArray}
    (h : expandItems literals distances s out = .ok (result, t)) : t.size ≤ s.size := by
  fun_induction expandItems literals distances s out with
  | case1 => simp at h
  | case2 s out u hr =>
    simp only [Except.ok.injEq, Prod.mk.injEq] at h
    exact h.2 ▸ Nat.le_of_lt (strict_readItem literals distances hr)
  | case3 s out b u hr ih =>
    exact Nat.le_trans (ih h) (Nat.le_of_lt (strict_readItem literals distances hr))
  | case4 s out l d u hr ih =>
    exact Nat.le_trans (ih h) (Nat.le_of_lt (strict_readItem literals distances hr))

/-! ### Blocks -/

/-- How a block holds its data. -/
inductive BlockHeader where
  | stored (length : Nat)
  | compressed (literals distances : PrefixCode)

/-- The literals and lengths of blocks without codes of their own. -/
def fixedLiterals : PrefixCode :=
  .ofLengths (List.replicate 144 8 ++ List.replicate 112 9 ++ List.replicate 24 7
    ++ List.replicate 8 8)

/-- The distances of such blocks. -/
def fixedDistances : PrefixCode := .ofLengths (List.replicate 32 5)

/-- The order in which the lengths for the symbols of the length code come. -/
def lengthOrder : List Nat := [16, 17, 18, 0, 8, 7, 9, 6, 10, 5, 11, 4, 12, 3, 13, 2, 14, 1, 15]

/-- Reads the lengths of the length code, `count` of them; the others are 0. -/
def readCodeLengths (count : Nat) : BitReader (List Nat) := do
  let found ← (lengthOrder.take count).mapM fun symbol => do return (symbol, ← .number 3)
  return (List.range 19).map fun symbol => (found.lookup symbol).getD 0

/-- Reads further lengths, up to `count` in all. Symbols from 16 on repeat the last length or zero. -/
def readLengths (code : PrefixCode) (count : Nat) (done : Array Nat) : BitReader (Array Nat) := do
  if done.size < count then
    let symbol ← code.read
    if symbol < 16 then readLengths code count (done.push symbol)
    else
      let (least, bits, length?) := match symbol with
        | 16 => (3, 2, done.back?)
        | 17 => (3, 3, some 0)
        | _ => (11, 7, some 0)
      match length? with
      | none => .fail .corrupt
      | some length =>
        let more ← .number bits
        readLengths code count ((done ++ Array.replicate (least - 1 + more) length).push length)
  else if done.size = count then return done
  else .fail .corrupt
termination_by count - done.size
decreasing_by all_goals simp only [Array.size_push, Array.size_append, Array.size_replicate]; omega

/-- Reads the codes of a block that has its own. -/
def readCodes : BitReader BlockHeader := do
  let literalCount := 257 + (← .number 5)
  let distanceCount := 1 + (← .number 5)
  let lengthCount := 4 + (← .number 4)
  if 286 < literalCount || 30 < distanceCount then .fail .corrupt
  else
    let code ← PrefixCode.ofLengths? true (← readCodeLengths lengthCount)
    let lengths := (← readLengths code (literalCount + distanceCount) #[]).toList
    let distances ← PrefixCode.ofLengths? false (lengths.drop literalCount)
    let literals ← PrefixCode.ofLengths? false (lengths.take literalCount)
    return .compressed literals distances

/-- Reads the length of a stored block, which is written twice, the second time inverted. -/
def readStored : BitReader BlockHeader := do
  BitReader.align
  let length ← .number 16
  let inverted ← .number 16
  if length + inverted = 0xffff then return .stored length else .fail .corrupt

/-- Reads the start of a block: whether it is the last one, and how it holds its data. -/
def readHeader : BitReader (Bool × BlockHeader) := do
  let final ← .bit
  let header ← match ← .number 2 with
    | 0 => readStored
    | 1 => pure (.compressed fixedLiterals fixedDistances)
    | 2 => readCodes
    | _ => .fail .corrupt
  return (final, header)

/-- Reading a header uses up bits. -/
theorem strict_readHeader : readHeader.Strict := BitReader.Strict.bind BitReader.strict_bit _

/-- Expands one block behind what there is in `out`. -/
def expandBlock (header : BlockHeader) (s : Bits) (out : ByteArray) :
    Except InflateError (ByteArray × Bits) :=
  match header with
  | .compressed literals distances => expandItems literals distances s out
  | .stored length =>
    let bytes := s.rest.take length
    if bytes.length = length then
      .ok (bytes.foldl ByteArray.push out, ⟨0, 0, s.rest.drop length⟩)
    else .error .incomplete

/-- Expanding a block uses up no more bits than there are. -/
theorem size_expandBlock {header : BlockHeader} {s t : Bits} {out result : ByteArray}
    (h : expandBlock header s out = .ok (result, t)) : t.size ≤ s.size := by
  cases header with
  | compressed literals distances => exact size_expandItems h
  | stored length =>
    simp only [expandBlock] at h
    split at h
    · simp only [Except.ok.injEq, Prod.mk.injEq] at h
      rw [← h.2]
      simp only [Bits.size, List.length_drop]
      omega
    · simp at h

/-- Expands all blocks behind what there is in `out`. -/
def expandBlocks (s : Bits) (out : ByteArray) : Except InflateError ByteArray :=
  match _hr : readHeader.run s with
  | .error e => .error e
  | .ok ((final, header), t) =>
    match _hb : expandBlock header t out with
    | .error e => .error e
    | .ok (result, u) => if final then .ok result else expandBlocks u result
termination_by s.size
decreasing_by exact Nat.lt_of_le_of_lt (size_expandBlock _hb) (strict_readHeader _hr)

/-- Expands compressed data. -/
def inflate (bytes : List UInt8) : Except InflateError ByteArray :=
  expandBlocks (.ofBytes bytes) ByteArray.empty

end PrimaryDex.Zip
