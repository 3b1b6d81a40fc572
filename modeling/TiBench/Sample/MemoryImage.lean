import TiBench.Sample.ChaCha

/-!
# Memory images

Bytes that load at an address, and images of uniform bytes, each drawn from its own seed.
-/

namespace TiBench.Sample

/-- Bytes with the address where they load. -/
structure MemoryImage where
  base : UInt16
  data : Bytes
deriving DecidableEq

namespace MemoryImage

/-- Whether the image is made of whole words at even addresses. -/
def isWordAligned (img : MemoryImage) : Bool :=
  img.data.length % 2 == 0 && img.base % 2 == 0

/-- The words of the image, without an odd byte at its end. -/
def words (img : MemoryImage) : List UInt16 := Bytes.wordsBE img.data

end MemoryImage

/-- `size` uniform bytes that depend on the seed alone. -/
def randomBlock (seed : UInt64) (size : Nat) (base : UInt16) : MemoryImage :=
  ⟨base, ChaCha.stream (ChaCha.keyOfSeed seed) size⟩

/-- A block for each run, run `i` with the seed `i`. -/
def randomBlocks (runs size : Nat) (base : UInt16) : List MemoryImage :=
  (List.range runs).map fun i => randomBlock (UInt64.ofNat i) size base

end TiBench.Sample
