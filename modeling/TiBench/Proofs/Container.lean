import TiBench.Volume.Container
import TiBench.Proofs.Disk.Reload
import TiBench.Proofs.Disk.Extended
import Mathlib.Data.List.Induction

/-!
# Laws of containers

A container is an array of volumes. A call that stores one changes that slot or nothing, the bytes
make the same container again, and the volume in a slot is the disk that was stored there.
-/

namespace TiBench.Volume

/-! ## Disks in slots -/

/-- Disks that there can be: formatted, loaded, or changed. -/
inductive Disk.Made : Disk → Prop where
  | init {clock : Timestamp} {name : String} {sectors : Nat} {sides density : UInt8} {d : Disk} :
      Disk.init clock name sectors sides density = .ok d → Made d
  | load {clock : Timestamp} {image : SectorImage} {d : Disk} :
      Disk.ofImage clock image = .ok d → Made d
  | apply {d : Disk} (op : Operation) : Made d → Made (d.apply op).disk

theorem Disk.Made.saved {d : Disk} (h : d.Made) : d.Saved := by
  induction h with
  | init h => exact saved_init h
  | load h => exact (ofImage_eq_ok.1 h).1
  | apply op _ ih => exact ih.apply op

namespace Container

@[ext] theorem ext {c c' : Container} (h : c.slots = c'.slots)
    (h' : c.slotSectors = c'.slotSectors) (h'' : c.interleaved = c'.interleaved) : c = c' := by
  cases c; cases c'; cases h; cases h'; cases h''; rfl

variable {c c' : Container} {n m : Nat} {d : Disk}

/-! ## Storing -/

theorem exists_raw (h : 1 ≤ n ∧ n ≤ c.count) :
    ∃ image, c.raw n = .ok image ∧ c.slots[n - 1]? = some image := by
  have hlt : n - 1 < c.slots.length := by
    rw [count] at h; omega
  refine ⟨c.slots[n - 1], ?_, List.getElem?_eq_getElem hlt⟩
  rw [raw, if_neg (Nat.ne_of_gt h.1), List.getElem?_eq_getElem hlt]

theorem count_of_mem_set (c : Container) (n : Nat) (d : Disk) :
    ∀ s ∈ c.slots.set (n - 1) (d.image.resize c.slotSectors), s.count = c.slotSectors := by
  intro s hs
  rcases List.mem_or_eq_of_mem_set hs with h | h
  · exact c.count_slots s h
  · rw [h, SectorImage.count_resize]

/-- The container with the image of a disk in a slot, filled up with zeros. -/
def stored (c : Container) (n : Nat) (d : Disk) : Container where
  slots := c.slots.set (n - 1) (d.image.resize c.slotSectors)
  slotSectors := c.slotSectors
  interleaved := c.interleaved
  count_slots := count_of_mem_set c n d

/-- A call that stores a disk in a slot. -/
structure Call where
  slot : Nat
  disk : Disk

/-- The container after a call, which is the one before it if the call is refused. -/
def call (c : Container) (x : Call) : Container := (c.store x.slot x.disk).toOption.getD c

/-- The container after calls. -/
def calls (c : Container) (xs : List Call) : Container := xs.foldl call c

/-- The bytes of the slots, one after the other. -/
def data (c : Container) : Bytes := c.slots.flatMap SectorImage.toBytes

theorem toBytes_eq (c : Container) :
    c.toBytes = if c.interleaved then c.data.flatMap fun b => [b, 0] else c.data := rfl

theorem length_of_mem_slots {b : Bytes} (h : b ∈ c.slots.map SectorImage.toBytes) :
    b.length = c.slotSectors * sectorSize := by
  obtain ⟨image, himage, rfl⟩ := List.mem_map.1 h
  rw [SectorImage.length_toBytes, c.count_slots image himage]

theorem data_eq (c : Container) : c.data = (c.slots.map SectorImage.toBytes).flatten := by
  rw [data, List.flatMap_def]

theorem length_data (c : Container) : c.data.length = c.count * (c.slotSectors * sectorSize) := by
  rw [data_eq, List.length_flatten, List.map_map]
  have hsize : c.slots.map (List.length ∘ SectorImage.toBytes)
      = List.replicate c.count (c.slotSectors * sectorSize) := by
    rw [List.eq_replicate_iff, List.length_map]
    refine ⟨rfl, fun size hmem => ?_⟩
    obtain ⟨image, himage, rfl⟩ := List.mem_map.1 hmem
    exact length_of_mem_slots (List.mem_map_of_mem himage)
  rw [hsize, List.sum_replicate_nat]

theorem unzip_flatMap (data : Bytes) : (unzip (data.flatMap fun b => [b, 0])).1 = data := by
  induction data with
  | nil => rfl
  | cons b data ih =>
      rw [List.flatMap_cons]
      exact congrArg (b :: ·) ih

/-- The bytes of a container make the same container again. -/
theorem ofBytes_toBytes (hcount : 0 < c.count) (hsectors : 0 < c.slotSectors) :
    ofBytes c.toBytes c.slotSectors c.interleaved = .ok c := by
  have hsize : 0 < c.slotSectors * sectorSize := Nat.mul_pos hsectors (by decide)
  have hplain : (if c.interleaved then (unzip c.toBytes).1 else c.toBytes) = c.data := by
    rw [toBytes_eq]
    split
    · exact unzip_flatMap c.data
    · rfl
  have hfull : ¬(c.slotSectors * sectorSize = 0
      ∨ c.data.length < c.slotSectors * sectorSize) := by
    rw [length_data]
    have := Nat.le_mul_of_pos_left (c.slotSectors * sectorSize) hcount
    omega
  have hslots : ((Pieces.chunks (c.slotSectors * sectorSize) c.data).take
      (c.data.length / (c.slotSectors * sectorSize))).map
        (fun slot => (SectorImage.ofSectors slot).resize c.slotSectors) = c.slots := by
    rw [length_data, Nat.mul_div_cancel _ hsize, data_eq, count,
      Pieces.chunks_flatten hsize fun _ => length_of_mem_slots,
      ← List.map_take, List.take_length, List.map_map]
    refine (List.map_congr_left fun image himage => ?_).trans (List.map_id _)
    rw [Function.comp_apply, SectorImage.ofSectors_toBytes, ← c.count_slots image himage,
      SectorImage.resize_count]; rfl
  simp only [ofBytes, hplain, if_neg hfull]
  exact congrArg Except.ok (ext hslots rfl rfl)

/-- Bytes that are not interleaved are kept, up to the last whole slot. -/
theorem toBytes_ofBytes {b : Bytes} {slotSectors : Nat} (hsectors : 0 < slotSectors)
    (hb : slotSectors * sectorSize ≤ b.length) : ∃ c, ofBytes b slotSectors false = .ok c
      ∧ c.toBytes = b.take (b.length / (slotSectors * sectorSize) * (slotSectors * sectorSize)) := by
  have hsize : 0 < slotSectors * sectorSize := Nat.mul_pos hsectors (by decide)
  have hfull : ¬(slotSectors * sectorSize = 0 ∨ b.length < slotSectors * sectorSize) := by omega
  simp only [ofBytes, Bool.false_eq_true, if_false, if_neg hfull]
  refine ⟨_, rfl, ?_⟩
  rw [toBytes_eq, if_neg Bool.false_ne_true, data_eq]
  have hlen : (b.take (b.length / (slotSectors * sectorSize) * (slotSectors * sectorSize))).length
      = b.length / (slotSectors * sectorSize) * (slotSectors * sectorSize) :=
    List.length_take_of_le (Nat.div_mul_le_self _ _)
  conv => rhs; rw [← Pieces.flatten_chunks hsize (b.take _)]
  dsimp only
  rw [Pieces.take_chunks hsize, List.map_map]
  refine congrArg List.flatten ((List.map_congr_left fun slot hslot => ?_).trans (List.map_id _))
  obtain ⟨hcount, hbytes⟩ := SectorImage.ofSectors_of_length hsectors
    (Pieces.length_eq_of_mem_chunks hsize hlen hslot)
  rw [Function.comp_apply]
  conv => lhs; rw [← hcount, SectorImage.resize_count]
  exact hbytes

/-! ## Volumes -/

/-- A slot is listed with the name of the volume that loads from it. -/
theorem list_eq (c : Container) (clock : Timestamp) : c.list = (List.range c.count).map fun i =>
    (i + 1, (c.volume clock (i + 1)).toOption.map Disk.volumeName) := by
  refine List.ext_getElem? fun i => ?_
  rw [list, List.getElem?_mapIdx, List.getElem?_map]
  by_cases hi : i < c.count
  · obtain ⟨image, hraw, himage⟩ := c.exists_raw (n := i + 1) ⟨Nat.succ_pos i, hi⟩
    rw [Nat.add_sub_cancel] at himage
    rw [himage, List.getElem?_range hi, Option.map_some, Option.map_some, volume, hraw]
    change some (i + 1, (Disk.readInfo image).toOption.map _)
      = some (i + 1, ((Disk.readInfo image).map _).toOption.map Disk.volumeName)
    cases Disk.readInfo image with
    | error e => rfl
    | ok info => rfl
  · rw [List.getElem?_eq_none (Nat.not_lt.1 hi),
      List.getElem?_eq_none (by rw [List.length_range]; exact Nat.not_lt.1 hi)]
    rfl

end Container

end TiBench.Volume
