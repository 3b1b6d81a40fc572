import TiBench.Sample.MemoryImage

/-!
# Exhaustive plans

The space of 16 bit words cut into consecutive chunks that fit an image, so that each word is in
one chunk. An image ends in two filler words.
-/

namespace TiBench.Sample

/-- Why there is no plan. -/
inductive PlanError where
  | capacity (bytes : Nat)
  | addressRange (bytes : Nat)
deriving DecidableEq, Repr

/-- The wording of an error. -/
def PlanError.message : PlanError → String
  | .capacity bytes =>
    s!"image capacity {bytes} cannot hold a chunk, need an even byte count of at least 6"
  | .addressRange bytes =>
    s!"image of {bytes} bytes at the base address runs past the end of memory"

/-- The number of words. -/
def wordSpace : Nat := 0x10000

/-- The word that does nothing, the usual filler. -/
def idleWord : UInt16 := 0x1000

/-- The filler words after every chunk. -/
def fillerWords : Nat := 2

/-- How the words are cut into chunks. -/
structure ChunkPlan where
  base : UInt16
  filler : UInt16
  wordsPerChunk : Nat
  wordsPerChunk_pos : 0 < wordsPerChunk

/-- A chunk of the words from `first` to before `stop`. -/
structure Chunk where
  index : Nat
  first : Nat
  stop : Nat
  image : MemoryImage
deriving DecidableEq

namespace ChunkPlan

/-- The plan for images of `capacity` bytes, which must be whole words, more than the filler, and
end before the end of memory. -/
def make (capacity : Nat) (base filler : UInt16) : Except PlanError ChunkPlan :=
  if h : capacity % 2 = 0 ∧ 2 * (fillerWords + 1) ≤ capacity then
    if base.toNat + capacity ≤ wordSpace then
      .ok ⟨base, filler, capacity / 2 - fillerWords, by unfold fillerWords at *; omega⟩
    else .error (.addressRange capacity)
  else .error (.capacity capacity)

/-- The number of chunks. -/
def count (p : ChunkPlan) : Nat := (wordSpace + p.wordsPerChunk - 1) / p.wordsPerChunk

/-- The words of an image: those from `first` to before `stop`, then the filler. -/
def imageWords (p : ChunkPlan) (first stop : Nat) : List UInt16 :=
  (List.range' first (stop - first)).map UInt16.ofNat ++ List.replicate fillerWords p.filler

/-- The chunk with an index. -/
def chunk? (p : ChunkPlan) (index : Nat) : Option Chunk :=
  if index < p.count then
    let first := index * p.wordsPerChunk
    let stop := min (first + p.wordsPerChunk) wordSpace
    some ⟨index, first, stop, ⟨p.base, (p.imageWords first stop).flatMap Bytes.ofWordBE⟩⟩
  else none

/-- All chunks in order. -/
def chunks (p : ChunkPlan) : List Chunk := (List.range p.count).filterMap p.chunk?

end ChunkPlan

end TiBench.Sample
