import TiBench.Bytes

/-!
# Allocation bitmap

One bit for each sector, set if the sector is in use. On disk, sector `s` is bit `s % 8` of byte
`s / 8`, counted from the least significant bit.
-/

namespace TiBench.Volume

/-- The bytes of a bitmap on disk. -/
def bitmapSize : Nat := 200

/-- The greatest number of sectors that a bitmap describes. -/
def maxSectors : Nat := 1600

/-- Which sectors are in use. -/
structure Bitmap where
  bits : Array Bool
deriving DecidableEq

namespace Bitmap

/-- The bits of a byte, the least significant one first. -/
def bitsOfByte (b : UInt8) : List Bool := (List.range 8).map fun k => b.toNat.testBit k

/-- The byte with these bits, the least significant one first. -/
def byteOfBits (bits : List Bool) : UInt8 :=
  UInt8.ofNat (bits.foldr (fun bit n => 2 * n + bit.toNat) 0)

/-- The bitmap that bytes describe. -/
def ofBytes (b : Bytes) : Bitmap := ⟨(b.flatMap bitsOfByte).toArray⟩

/-- The bytes that describe a bitmap. -/
def toBytes (m : Bitmap) : Block bitmapSize :=
  Block.fit 0 bitmapSize ((Pieces.chunks 8 m.bits.toList).map byteOfBits)

/-- The bitmap of a blank volume: the sectors past its end are in use. -/
def blank (total : Nat) : Bitmap :=
  ⟨((List.range maxSectors).map fun s => decide (total ≤ s)).toArray⟩

/-- Whether a sector is in use. One that the bitmap does not describe is. -/
def isUsed (m : Bitmap) (s : Nat) : Bool := m.bits.getD s true

/-- The bitmap with one sector marked. One that it does not describe stays as it is. -/
def mark (m : Bitmap) (s : Nat) (used : Bool) : Bitmap := ⟨m.bits.setIfInBounds s used⟩

/-- The first free sector from `first` on that is below `stop`. -/
def firstFree? (m : Bitmap) (first stop : Nat) : Option Nat :=
  (List.range' first (stop - first)).find? fun s => !m.isUsed s

/-- The number of free sectors below `stop`. -/
def countFree (m : Bitmap) (stop : Nat) : Nat := (List.range stop).countP fun s => !m.isUsed s

end Bitmap

end TiBench.Volume
