import TiBench.Volume.Name
import TiBench.Volume.Bitmap

/-!
# Volume information block

Sector zero of a volume: its name, its size and geometry, and the allocation bitmap. Words are
big endian.
-/

namespace TiBench.Volume

/-- What sector zero says of a volume. -/
structure Info where
  name : Block nameSize
  total : UInt16
  sectorsPerTrack : UInt8
  signature : Block 3
  protection : UInt8
  tracksPerSide : UInt8
  sides : UInt8
  density : UInt8
  reserved : Block 36
  bitmap : Block bitmapSize
deriving DecidableEq

namespace Info

/-- The letters `DSK`, which mark a formatted volume. -/
def formatted : Block 3 := ⟨[0x44, 0x53, 0x4b], rfl⟩

/-- What a sector says when it is read as sector zero. -/
def ofSector (s : Sector) : Info where
  name := s.slice 0 10
  total := s.wordBE 10
  sectorsPerTrack := s.byte 12
  signature := s.slice 13 3
  protection := s.byte 16
  tracksPerSide := s.byte 17
  sides := s.byte 18
  density := s.byte 19
  reserved := s.slice 20 36
  bitmap := s.slice 56 200

/-- The sector that says this of a volume. -/
def toSector (v : Info) : Sector where
  bytes := v.name.bytes ++ Bytes.ofWordBE v.total ++ [v.sectorsPerTrack] ++ v.signature.bytes
    ++ [v.protection, v.tracksPerSide, v.sides, v.density] ++ v.reserved.bytes ++ v.bitmap.bytes
  length_eq := by
    simp [Bytes.ofWordBE, Block.length_eq, nameSize, bitmapSize, sectorSize]

/-- The sectors on a track, by density. -/
def trackSize (density : UInt8) : UInt8 :=
  if density = 1 then 9 else if density = 2 then 18 else 36

/-- The information block of a volume with this name and geometry and an empty bitmap. -/
def new (name : Block nameSize) (total : UInt16) (sides density : UInt8) : Info where
  name := name
  total := total
  sectorsPerTrack := trackSize density
  signature := formatted
  protection := 0x20
  tracksPerSide := 40
  sides := sides
  density := density
  reserved := Block.zero 36
  bitmap := Block.zero bitmapSize

end Info

end TiBench.Volume
