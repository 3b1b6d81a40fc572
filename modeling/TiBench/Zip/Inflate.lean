import TiBench.Bytes
import TiBench.Zip.HuffmanCode

/-!
# Inflating

Reading data compressed by the deflate method: blocks up to the one that is marked as the last.
-/

namespace TiBench.Zip

/-- The bits of a byte string, the least significant bit of each byte first. -/
def bitsOf (data : Bytes) : List Bool := data.flatMap fun b => (List.range 8).map b.toNat.testBit

/-- The codes of literals and lengths, and of distances. -/
structure Codes where
  literals : CodeTree
  distances : CodeTree

/-- The least value of each length symbol, from 257 on, with the number of bits added to it. -/
def lengthBases : List (Nat × Nat) :=
  [(3, 0), (4, 0), (5, 0), (6, 0), (7, 0), (8, 0), (9, 0), (10, 0), (11, 1), (13, 1), (15, 1),
    (17, 1), (19, 2), (23, 2), (27, 2), (31, 2), (35, 3), (43, 3), (51, 3), (59, 3), (67, 4),
    (83, 4), (99, 4), (115, 4), (131, 5), (163, 5), (195, 5), (227, 5), (258, 0)]

/-- The least value of each distance symbol, with the number of bits added to it. -/
def distanceBases : List (Nat × Nat) :=
  [(1, 0), (2, 0), (3, 0), (4, 0), (5, 1), (7, 1), (9, 2), (13, 2), (17, 3), (25, 3), (33, 4),
    (49, 4), (65, 5), (97, 5), (129, 6), (193, 6), (257, 7), (385, 7), (513, 8), (769, 8),
    (1025, 9), (1537, 9), (2049, 10), (3073, 10), (4097, 11), (6145, 11), (8193, 12), (12289, 12),
    (16385, 13), (24577, 13)]

/-- The value of a symbol with the bits added to it. -/
def readExtra? (bases : List (Nat × Nat)) (symbol : Nat) (bits : List Bool) :
    Option (Nat × List Bool) := do
  let (base, extra) ← bases[symbol]?
  let (n, rest) ← readBits? extra bits
  return (base + n, rest)

/-- The byte `distance` before the end of the output. Before its start there are zeros. -/
def byteBefore (out : Array UInt8) (distance : Nat) : UInt8 :=
  if distance ≤ out.size then out.getD (out.size - distance) 0 else 0

/-- The output with `length` of its bytes again, from `distance` back on. -/
def copyBack (out : Array UInt8) (distance length : Nat) : Array UInt8 :=
  (List.range length).foldl (fun out _ => out.push (byteBefore out distance)) out

/-- The output after the symbols of a block, at most `fuel` of them, and what follows the block. -/
def inflateSymbols? (codes : Codes) :
    (fuel : Nat) → Array UInt8 → List Bool → Option (Array UInt8 × List Bool)
  | 0, _, _ => none
  | fuel + 1, out, bits => do
    let (symbol, rest) ← codes.literals.read? bits
    if symbol < 256 then inflateSymbols? codes fuel (out.push (UInt8.ofNat symbol)) rest
    else if symbol = 256 then return (out, rest)
    else
      let (length, rest) ← readExtra? lengthBases (symbol - 257) rest
      let (symbol, rest) ← codes.distances.read? rest
      let (distance, rest) ← readExtra? distanceBases symbol rest
      inflateSymbols? codes fuel (copyBack out distance length) rest

/-- The codes of a block without codes of its own. -/
def fixedCodes : Codes where
  literals := .ofLengths (List.replicate 144 8 ++ List.replicate 112 9 ++ List.replicate 24 7
    ++ List.replicate 8 8)
  distances := .ofLengths (List.replicate 32 5)

/-- The order in which the lengths of the code for lengths are given. -/
def lengthOrder : List Nat := [16, 17, 18, 0, 8, 7, 9, 6, 10, 5, 11, 4, 12, 3, 13, 2, 14, 1, 15]

/-- `n` numbers of three bits each, and what follows them. -/
def readTriples? : (n : Nat) → List Bool → Option (List Nat × List Bool)
  | 0, bits => some ([], bits)
  | n + 1, bits => do
    let (l, rest) ← readBits? 3 bits
    let (ls, rest) ← readTriples? n rest
    return (l :: ls, rest)

/-- Code lengths in run length form until there are `n`, after those in `done`, in reverse. -/
def readLengths? (code : CodeTree) (n : Nat) :
    (fuel : Nat) → (done : List Nat) → List Bool → Option (List Nat × List Bool)
  | 0, _, _ => none
  | fuel + 1, done, bits =>
    if done.length = n then some (done.reverse, bits)
    else if n < done.length then none
    else do
      let (symbol, rest) ← code.read? bits
      if symbol < 16 then readLengths? code n fuel (symbol :: done) rest
      else
        let (l, size, least) ← match symbol with
          | 16 => done.head?.map (·, 2, 3)
          | 17 => some (0, 3, 3)
          | _ => some (0, 7, 11)
        let (k, rest) ← readBits? size rest
        readLengths? code n fuel (List.replicate (k + least) l ++ done) rest

/-- The greatest number of literals and lengths in the codes of a block. -/
def maxLiterals : Nat := 286

/-- The greatest number of distances in the codes of a block. -/
def maxDistances : Nat := 30

/-- The codes at the start of a block that has codes of its own, and what follows them. -/
def readCodes? (bits : List Bool) : Option (Codes × List Bool) := do
  let (literals, rest) ← readBits? 5 bits
  let (distances, rest) ← readBits? 5 rest
  let (lengths, rest) ← readBits? 4 rest
  let literals := literals + 257
  let distances := distances + 1
  guard (literals ≤ maxLiterals ∧ distances ≤ maxDistances)
  let (triples, rest) ← readTriples? (lengths + 4) rest
  let code ← CodeTree.full? <| (List.range lengthOrder.length).map fun s =>
    ((lengthOrder.idxOf? s).bind fun i => triples[i]?).getD 0
  let n := literals + distances
  let (all, rest) ← readLengths? code n (n + 1) [] rest
  let codes : Codes :=
    ⟨← CodeTree.sparse? (all.take literals), ← CodeTree.sparse? (all.drop literals)⟩
  return (codes, rest)

/-- The bytes of a stored block: from the next whole byte on, its length twice, once inverted, and
the bytes themselves. -/
def inflateStored? (out : Array UInt8) (bits : List Bool) : Option (Array UInt8 × List Bool) := do
  let (size, rest) ← readBits? 16 (bits.drop (bits.length % 8))
  let (inverse, rest) ← readBits? 16 rest
  guard (size + inverse = 65535 ∧ 8 * size ≤ rest.length)
  let data := (Pieces.chunks 8 (rest.take (8 * size))).map fun byte =>
    UInt8.ofNat (byte.foldr (fun bit n => 2 * n + bit.toNat) 0)
  return (out ++ data.toArray, rest.drop (8 * size))

/-- The output after one block of a kind, and what follows the block. -/
def inflateBlock? (kind : Nat) (out : Array UInt8) (bits : List Bool) :
    Option (Array UInt8 × List Bool) :=
  match kind with
  | 0 => inflateStored? out bits
  | 1 => inflateSymbols? fixedCodes (bits.length + 1) out bits
  | 2 => do
    let (codes, rest) ← readCodes? bits
    inflateSymbols? codes (rest.length + 1) out rest
  | _ => none

/-- The output after all blocks, at most `fuel` of them. What follows the last does not matter. -/
def inflateBlocks? : (fuel : Nat) → Array UInt8 → List Bool → Option (Array UInt8)
  | 0, _, _ => none
  | fuel + 1, out, bits => do
    let (last, rest) ← readBits? 1 bits
    let (kind, rest) ← readBits? 2 rest
    let (out, rest) ← inflateBlock? kind out rest
    if last = 1 then return out else inflateBlocks? fuel out rest

/-- The data in a deflated byte string, if that follows the format. -/
def inflate? (data : Bytes) : Option Bytes :=
  let bits := bitsOf data
  (inflateBlocks? (bits.length + 1) #[] bits).map Array.toList

end TiBench.Zip
