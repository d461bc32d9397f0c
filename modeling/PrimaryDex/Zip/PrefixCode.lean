import PrimaryDex.Zip.Bits

namespace PrimaryDex.Zip

/-!
# Prefix codes

A code gives each of the symbols 0, 1, 2, … a row of bits, none of which starts another. It is
determined by the lengths of these rows: shorter ones come first, and those of one length are
numbered in the order of the symbols.

* `Trie` — the rows as a binary tree;
* `PrefixCode.ofLengths?` — the code with the given lengths, where 0 means that a symbol is not used;
* `PrefixCode.read` — reads one symbol.
-/

/-- A binary tree with symbols at its leaves. -/
inductive Trie where
  | empty
  | leaf (symbol : Nat)
  | node (zero one : Trie)
  deriving Inhabited

namespace Trie

/-- Puts a symbol at the end of a row of bits. -/
def insert (symbol : Nat) : List Bool → Trie → Trie
  | [], _ => leaf symbol
  | b :: bs, t =>
    let (zero, one) := match t with
      | node z o => (z, o)
      | _ => (empty, empty)
    if b then node zero (insert symbol bs one) else node (insert symbol bs zero) one

/-- Reads bits down to a leaf. -/
def read : Trie → BitReader Nat
  | empty => .fail .corrupt
  | leaf symbol => return symbol
  | node zero one => do if ← .bit then one.read else zero.read

end Trie

/-- A code in which every row has at least one bit. -/
structure PrefixCode where
  zero : Trie
  one : Trie
  deriving Inhabited

namespace PrefixCode

/-- The greatest length of a row. -/
def maxLength : Nat := 15

/-- The `length` lowest bits of `code`, the highest one first. -/
def row (length code : Nat) : List Bool :=
  (List.range length).map fun i => code.testBit (length - 1 - i)

/-- Numbers the symbols of one length from `code` on. -/
def insertLength (lengths : List Nat) (code : Nat) (t : Trie) (length : Nat) : Nat × Trie :=
  (lengths.zipIdx.filter (·.1 = length)).foldl
    (fun (code, t) (_, symbol) => (code + 1, t.insert symbol (row length code))) (code, t)

/-- The code whose symbols have the given lengths. -/
def ofLengths (lengths : List Nat) : PrefixCode :=
  let (_, t) := (List.range maxLength).foldl
    (fun (code, t) i =>
      let (code, t) := insertLength lengths code t (i + 1)
      (2 * code, t)) (0, Trie.empty)
  match t with
  | .node zero one => ⟨zero, one⟩
  | _ => ⟨.empty, .empty⟩

/-- Whether every row of bits of the greatest length starts with exactly one code. -/
def isComplete (lengths : List Nat) : Bool :=
  (lengths.filter (· ≠ 0)).foldl (fun total l => total + Nat.pow 2 (maxLength - l)) 0
    == Nat.pow 2 maxLength

/-- The code with the given lengths if it is complete or, unless `strict`, has no symbol or a single
    one of one bit. -/
def ofLengths? (strict : Bool) (lengths : List Nat) : BitReader PrefixCode :=
  if isComplete lengths || (!strict && [[], [1]].contains (lengths.filter (· ≠ 0))) then
    return ofLengths lengths
  else .fail .corrupt

/-- Reads one symbol. -/
def read (c : PrefixCode) : BitReader Nat := do
  if ← .bit then c.one.read else c.zero.read

/-- Each symbol takes at least one bit. -/
theorem strict_read (c : PrefixCode) : c.read.Strict := BitReader.Strict.bind BitReader.strict_bit _

end PrefixCode

end PrimaryDex.Zip
