import TiBench.Volume.Disk.Basic

/-!
# Containers of volumes

Volumes of one size back to back in slots numbered from one. An interleaved container has a zero
byte after each of its bytes.
-/

namespace TiBench.Volume

/-- The sectors of a slot unless another number is given. -/
def usualSlotSectors : Nat := 1600

/-- Slots of one size, each with an image that may hold a volume. -/
structure Container where
  slots : List SectorImage
  slotSectors : Nat
  interleaved : Bool
  count_slots : ∀ s ∈ slots, s.count = slotSectors

namespace Container

/-- The number of slots. -/
def count (c : Container) : Nat := c.slots.length

/-- A container of zero bytes. -/
def blank (count slotSectors : Nat) (interleaved : Bool) : Container where
  slots := List.replicate count (SectorImage.blank slotSectors)
  slotSectors := slotSectors
  interleaved := interleaved
  count_slots := by simp +contextual [List.mem_replicate]

/-- The bytes at even and at odd places. -/
def unzip (data : Bytes) : Bytes × Bytes := data.foldr (fun b p => (b :: p.2, p.1)) ([], [])

/-- The container in a byte string, which must fill one slot at least. What is left of it after the
last whole slot is dropped. -/
def ofBytes (data : Bytes) (slotSectors : Nat) (interleaved : Bool) :
    Except ImageError Container :=
  let plain := if interleaved then (unzip data).1 else data
  let size := slotSectors * sectorSize
  if size = 0 ∨ plain.length < size then .error (.imageSize data.length)
  else
    .ok {
      slots := ((Pieces.chunks size plain).take (plain.length / size)).map fun slot =>
        (SectorImage.ofSectors slot).resize slotSectors
      slotSectors := slotSectors
      interleaved := interleaved
      count_slots := by
        intro s hs
        obtain ⟨slot, -, rfl⟩ := List.mem_map.1 hs
        exact SectorImage.count_resize _ _ }

/-- The bytes of the container. -/
def toBytes (c : Container) : Bytes :=
  let plain := c.slots.flatMap SectorImage.toBytes
  if c.interleaved then plain.flatMap fun b => [b, 0] else plain

/-- The image in a slot. -/
def raw (c : Container) (n : Nat) : Except ImageError SectorImage :=
  if n = 0 then .error (.volumeIndex n)
  else match c.slots[n - 1]? with
    | some image => .ok image
    | none => .error (.volumeIndex n)

/-- The volume in a slot. -/
def volume (clock : Timestamp) (c : Container) (n : Nat) : Except VolumeError Disk := do
  Disk.ofImage clock (← (c.raw n).mapError .image)

/-- The container with a volume stored in a slot. The rest of the slot is zero. -/
def store (c : Container) (n : Nat) (d : Disk) : Except ImageError Container := do
  let _ ← c.raw n
  if c.slotSectors < d.image.count then .error (.volumeSize d.image.count)
  else
    return {
      c with
      slots := c.slots.set (n - 1) (d.image.resize c.slotSectors)
      count_slots := by
        intro s hs
        rcases List.mem_or_eq_of_mem_set hs with h | h
        · exact c.count_slots s h
        · rw [h, SectorImage.count_resize] }

/-- Every slot's number with the name of the volume in it, if it holds one. -/
def list (c : Container) : List (Nat × Option String) :=
  c.slots.mapIdx fun i image =>
    (i + 1, (Disk.readInfo image).toOption.map fun info => unpackName info.1.name.bytes)

end Container

end TiBench.Volume
