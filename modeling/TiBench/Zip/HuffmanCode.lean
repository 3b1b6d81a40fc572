/-!
# Huffman codes

Canonical prefix codes given by the lengths of their code words, as binary trees.
-/

namespace TiBench.Zip

/-- A number of `n` bits, the least significant first, and what follows it. -/
def readBits? : (n : Nat) → List Bool → Option (Nat × List Bool)
  | 0, bits => some (0, bits)
  | _ + 1, [] => none
  | n + 1, bit :: bits => (readBits? n bits).map fun (high, rest) => (bit.toNat + 2 * high, rest)

/-- The code words of a prefix code, each a path from the root. -/
inductive CodeTree where
  | absent
  | symbol (s : Nat)
  | branch (zero one : CodeTree)

namespace CodeTree

/-- The symbol whose code word stands at the start of a stream, and what follows it. -/
def read? : CodeTree → List Bool → Option (Nat × List Bool)
  | .absent, _ => none
  | .symbol s, bits => some (s, bits)
  | .branch _ _, [] => none
  | .branch zero one, bit :: bits => if bit then one.read? bits else zero.read? bits

/-- The tree with a symbol at the end of a path. -/
def insert (s : Nat) : List Bool → CodeTree → CodeTree
  | [], _ => .symbol s
  | bit :: path, .branch zero one =>
    if bit then .branch zero (insert s path one) else .branch (insert s path zero) one
  | bit :: path, _ =>
    if bit then .branch .absent (insert s path .absent) else .branch (insert s path .absent) .absent

/-- The greatest length of a code word. -/
def maxLength : Nat := 15

/-- A number as a path of `n` bits, the most significant first. -/
def path (n code : Nat) : List Bool := ((List.range n).map code.testBit).reverse

/-- Code words given out length by length: the tree so far, and the next code word of the length. -/
def ofLength (lengths : List Nat) (acc : CodeTree × Nat) (n : Nat) : CodeTree × Nat :=
  let (tree, code) := lengths.zipIdx.foldl
    (fun (tree, code) (l, s) =>
      if l = n then (insert s (path n code) tree, code + 1) else (tree, code)) acc
  (tree, 2 * code)

/-- The canonical code whose code words have these lengths, zero for a symbol without one. -/
def ofLengths (lengths : List Nat) : CodeTree :=
  ((List.range' 1 maxLength).foldl (ofLength lengths) (.absent, 0)).1

/-- The number of paths of the greatest length. -/
def pathCount : Nat := 1 <<< maxLength

/-- The number of paths of the greatest length that start with code words of these lengths. -/
def weight (lengths : List Nat) : Nat := lengths.foldl (fun n l => n + 1 <<< (maxLength - l)) 0

/-- The lengths of the code words that there are. -/
def used (lengths : List Nat) : List Nat := lengths.filter (0 < ·)

/-- The code whose code words use up all paths. -/
def full? (lengths : List Nat) : Option CodeTree :=
  if weight (used lengths) = pathCount then some (ofLengths lengths) else none

/-- The code whose code words use up all paths, or that has only one, of one bit, or none. -/
def sparse? (lengths : List Nat) : Option CodeTree :=
  if used lengths ∈ [[], [1]] then some (ofLengths lengths) else full? lengths

end CodeTree

end TiBench.Zip
