import TiBench.Bytes

/-!
# Sector images

A volume's bytes as an array of sectors, numbered from zero.
-/

namespace TiBench

/-- Why an image, or a slot of a container of volumes, cannot be used. -/
inductive ImageError where
  | sectorAccess (sector : Nat)
  | imageSize (bytes : Nat)
  | bufferSize (bytes : Nat)
  | volumeIndex (slot : Nat)
  | volumeSize (sectors : Nat)
deriving DecidableEq, Repr

/-- The wording of an error. -/
def ImageError.message : ImageError → String
  | .sectorAccess sector => s!"sector {sector} is out of range"
  | .imageSize bytes => s!"image of {bytes} bytes is not a whole number of sectors"
  | .bufferSize bytes => s!"sector buffer of {bytes} bytes, expected 256"
  | .volumeIndex slot => s!"volume {slot} is out of range"
  | .volumeSize sectors => s!"volume of {sectors} sectors does not fit the container slot"

/-- Sectors, numbered from zero. -/
structure SectorImage where
  sectors : Array Sector
deriving DecidableEq

namespace SectorImage

/-- The number of sectors. -/
def count (img : SectorImage) : Nat := img.sectors.size

/-- An image of zero bytes. -/
def blank (count : Nat) : SectorImage := ⟨Array.replicate count (Block.zero sectorSize)⟩

/-- All bytes, sector after sector. -/
def toBytes (img : SectorImage) : Bytes := img.sectors.toList.flatMap Block.bytes

/-- Consecutive sectors of a byte string; what is left of it fills one more with zeros. -/
def ofSectors (data : Bytes) : SectorImage :=
  ⟨((Pieces.chunks sectorSize data).map (Block.fit 0 sectorSize)).toArray⟩

/-- The image with these bytes, which must be whole sectors, one at least. -/
def ofBytes (data : Bytes) : Except ImageError SectorImage :=
  let size := data.length
  if size = 0 ∨ size % sectorSize ≠ 0 then .error (.imageSize size) else .ok (ofSectors data)

/-- The sector with a number. -/
def read (img : SectorImage) (n : Nat) : Except ImageError Sector :=
  match img.sectors[n]? with
  | some s => .ok s
  | none => .error (.sectorAccess n)

/-- The image with another sector in one place, if it has that place. -/
def put (img : SectorImage) (n : Nat) (s : Sector) : SectorImage :=
  ⟨img.sectors.setIfInBounds n s⟩

/-- The image cut off or filled up with zero sectors to `n` sectors. -/
def resize (n : Nat) (img : SectorImage) : SectorImage :=
  ⟨(img.sectors.toList.take n ++ List.replicate (n - img.count) (Block.zero sectorSize)).toArray⟩

/-- The image with a sector's worth of bytes written in one place. -/
def write (img : SectorImage) (n : Nat) (data : Bytes) : Except ImageError SectorImage :=
  if n < img.count then
    if h : data.length = sectorSize then .ok (img.put n ⟨data, h⟩)
    else .error (.bufferSize data.length)
  else .error (.sectorAccess n)

@[simp] theorem count_put (img : SectorImage) (n : Nat) (s : Sector) :
    (img.put n s).count = img.count := by
  simp [put, count]

@[simp] theorem count_resize (n : Nat) (img : SectorImage) : (img.resize n).count = n := by
  simp only [resize, count, List.size_toArray, List.length_append, List.length_take,
    List.length_replicate, Array.length_toList]
  omega

@[simp] theorem count_blank (count : Nat) : (blank count).count = count := by
  simp [blank, SectorImage.count]

end SectorImage

end TiBench
