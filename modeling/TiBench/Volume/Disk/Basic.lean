import TiBench.Volume.Error
import TiBench.Volume.Info
import TiBench.Volume.Descriptor
import TiBench.Volume.Index

/-!
# Disks

A disk is an image together with what its sector zero says, and the clock that stamps new files.
Every disk has more than the two sectors that describe it, and its image reaches as far as the
volume: `sectorAt` therefore needs no error, and the functions that write keep both facts.
-/

namespace TiBench.Volume

/-- The sector of the information block. -/
def infoSector : Nat := 0

/-- The sector of the descriptor index. -/
def indexSector : Nat := 1

/-- The first sector searched for descriptor records. -/
def firstFileSector : Nat := 2

/-- The first sector searched for data. -/
def firstDataSector : Nat := 34

/-- The block marks a formatted volume, with sectors for files, that an image of `count` sectors
and a bitmap can hold. -/
def Info.Describes (info : Info) (count : Nat) : Prop :=
  info.signature = Info.formatted ∧ firstFileSector < info.total.toNat
    ∧ info.total.toNat ≤ count ∧ info.total.toNat ≤ maxSectors

instance (info : Info) (count : Nat) : Decidable (info.Describes count) := by
  unfold Info.Describes; infer_instance

/-- A mounted volume. -/
structure Disk where
  image : SectorImage
  info : Info
  clock : Timestamp
  describes_files : firstFileSector < info.total.toNat
  total_le_count : info.total.toNat ≤ image.count
  total_le_max : info.total.toNat ≤ maxSectors

namespace Disk

@[ext] theorem ext {c d : Disk} (h : c.image = d.image) (h' : c.info = d.info)
    (h'' : c.clock = d.clock) : c = d := by
  cases c; cases d; cases h; cases h'; cases h''; rfl

/-- The number of sectors of the volume. -/
def total (d : Disk) : Nat := d.info.total.toNat

/-- The allocation bitmap. -/
def bitmap (d : Disk) : Bitmap := .ofBytes d.info.bitmap.bytes

/-- The name of the volume. -/
def volumeName (d : Disk) : String := unpackName d.info.name.bytes

/-- The bytes of the image. -/
def toBytes (d : Disk) : Bytes := d.image.toBytes

/-- The number of free sectors. -/
def freeSectors (d : Disk) : Nat := d.bitmap.countFree d.total

/-- The number of sectors in use. -/
def usedSectors (d : Disk) : Nat := d.total - d.freeSectors

/-- The disk with its clock set. -/
def setClock (d : Disk) (t : Timestamp) : Disk := { d with clock := t }

/-- A sector of the volume. -/
def sectorAt (d : Disk) (n : Nat) (h : n < d.total) : Sector :=
  have inside : n < d.image.sectors.size := Nat.lt_of_lt_of_le h d.total_le_count
  d.image.sectors[n]

/-- The disk with another sector in one place. -/
def putSector (d : Disk) (n : Nat) (s : Sector) : Disk :=
  { d with
    image := d.image.put n s
    total_le_count := by rw [SectorImage.count_put]; exact d.total_le_count }

/-- The disk with sectors written one after the other. -/
def putSectors (d : Disk) (writes : List (Nat × Sector)) : Disk :=
  writes.foldl (fun d w => d.putSector w.1 w.2) d

/-- The disk with another descriptor record in one place. -/
def putDescriptor (d : Disk) (n : Nat) (file : Descriptor) : Disk := d.putSector n file.toSector

/-- The disk with another bitmap, in memory and on the image. -/
def putBitmap (d : Disk) (m : Bitmap) : Disk :=
  let info : Info := { d.info with bitmap := m.toBytes }
  { d with
    image := d.image.put infoSector info.toSector
    info := info
    total_le_count := by rw [SectorImage.count_put]; exact d.total_le_count }

/-- A blank volume. A volume has three sectors at least, and as many as a bitmap describes at
most, one or two sides, and a density code other than zero. -/
def init (clock : Timestamp) (name : String) (sectors : Nat) (sides density : UInt8) :
    Except VolumeError Disk :=
  match packName name with
  | none => .error (.badName name)
  | some field =>
    if h : firstFileSector < sectors ∧ sectors ≤ maxSectors ∧ 1 ≤ sides ∧ sides ≤ 2 ∧ 1 ≤ density
    then
      let map := ((Bitmap.blank sectors).mark infoSector true).mark indexSector true
      let info : Info :=
        { Info.new field (UInt16.ofNat sectors) sides density with bitmap := map.toBytes }
      have total : info.total.toNat = sectors :=
        UInt16.toNat_ofNat_of_lt' (Nat.lt_of_le_of_lt h.2.1 (by decide))
      .ok
        { image := (SectorImage.blank sectors).put infoSector info.toSector
          info := info
          clock := clock
          describes_files := by rw [total]; exact h.1
          total_le_count := by
            simp only [SectorImage.count_put, SectorImage.count_blank, total, Nat.le_refl]
          total_le_max := by rw [total]; exact h.2.1 }
    else .error .geometry

/-- What sector zero of a formatted volume on an image says. -/
def readInfo (image : SectorImage) :
    Except VolumeError { info : Info // info.Describes image.count } :=
  match image.read infoSector with
  | .error e => .error (.image e)
  | .ok s =>
    if h : (Info.ofSector s).Describes image.count then .ok ⟨Info.ofSector s, h⟩
    else .error .notFormatted

/-- The volume on an image. -/
def ofImage (clock : Timestamp) (image : SectorImage) : Except VolumeError Disk :=
  (readInfo image).map fun ⟨info, h⟩ => ⟨image, info, clock, h.2.1, h.2.2.1, h.2.2.2⟩

/-- The volume on the image with these bytes. -/
def ofBytes (clock : Timestamp) (data : Bytes) : Except VolumeError Disk :=
  match SectorImage.ofBytes data with
  | .error e => .error (.image e)
  | .ok image => ofImage clock image

/-- A file in the index: the sector of its descriptor record, and what that says. -/
structure Entry where
  sector : Nat
  file : Descriptor
deriving DecidableEq

/-- The files in the order of the index. -/
def entries (d : Disk) : Except VolumeError (List Entry) :=
  (Index.pointers (d.sectorAt indexSector (Nat.lt_trans (by decide) d.describes_files)).bytes).mapM
    fun p =>
      if h : p < d.total then .ok ⟨p, Descriptor.ofSector (d.sectorAt p h)⟩
      else .error (.damaged (.pointer p))

/-- The first file in the index with a name. -/
def find (d : Disk) (name : String) : Except VolumeError Entry := do
  match (← d.entries).find? (·.file.fileName == name) with
  | some e => .ok e
  | none => .error (.fileNotFound name)

/-- The disk with the index of these files, in the order of their names. -/
def putIndex (d : Disk) (files : List Entry) : Disk :=
  d.putSector indexSector (Index.build (files.map fun e => (e.file.fileName, e.sector)))

end Disk

end TiBench.Volume
