import TiBench.Volume.Disk.Write
import TiBench.Proofs.Result
import TiBench.Proofs.SectorImage
import TiBench.Proofs.Bitmap
import TiBench.Proofs.Descriptor
import TiBench.Proofs.Index

/-!
# The sectors of a disk

A disk as a function from numbers to sectors: what a write changes, what it leaves alone, and what
reading the index and the data of a file comes to in terms of sectors.
-/

namespace TiBench.Volume.Disk

/-- The sector with a number, zero where the image does not reach that far. -/
def peek (d : Disk) (n : Nat) : Sector := d.image.sectors.getD n (Block.zero sectorSize)

theorem sectorAt_eq_peek (d : Disk) {n : Nat} (h : n < d.total) : d.sectorAt n h = d.peek n := by
  have inside : n < d.image.sectors.size := Nat.lt_of_lt_of_le h d.total_le_count
  rw [sectorAt, peek, Array.getD_eq_getD_getElem?, Array.getElem?_eq_getElem inside,
    Option.getD_some]

theorem read_eq_peek {d : Disk} {n : Nat} (h : n < d.image.count) :
    d.image.read n = .ok (d.peek n) := SectorImage.read_eq h

theorem indexSector_lt_total (d : Disk) : indexSector < d.total :=
  Nat.lt_trans (by decide) d.describes_files

theorem lt_count_of_lt_total {d : Disk} {n : Nat} (h : n < d.total) : n < d.image.count :=
  Nat.lt_of_lt_of_le h d.total_le_count

theorem getElem?_toBytes (d : Disk) (i : Nat) : d.toBytes[i]?
    = if i / sectorSize < d.image.count then (d.peek (i / sectorSize)).bytes[i % sectorSize]?
      else none := by
  rw [toBytes, SectorImage.getElem?_toBytes]
  split
  · rename_i h
    rw [Array.getElem?_eq_getElem h, Option.bind_some, peek, Array.getD_eq_getD_getElem?,
      Array.getElem?_eq_getElem h, Option.getD_some]
  · rename_i h
    rw [Array.getElem?_eq_none (Nat.not_lt.1 h), Option.bind_none]

/-- Sectors with the same bytes in two images are the same. -/
theorem peek_eq_of_bytes_eq {a b : Disk} {n : Nat} (hcount : b.image.count = a.image.count)
    (h : ∀ i, i / sectorSize = n → b.toBytes[i]? = a.toBytes[i]?) : b.peek n = a.peek n := by
  by_cases hn : n < a.image.count
  · apply Block.ext
    refine List.ext_getElem? fun j => ?_
    by_cases hj : j < sectorSize
    · have hdiv : (sectorSize * n + j) / sectorSize = n := by
        rw [Nat.mul_add_div (by decide), Nat.div_eq_of_lt hj, Nat.add_zero]
      have hmod : (sectorSize * n + j) % sectorSize = j := by
        rw [Nat.mul_add_mod, Nat.mod_eq_of_lt hj]
      have hbyte := h _ hdiv
      rwa [getElem?_toBytes, getElem?_toBytes, hdiv, hmod, hcount, if_pos hn, if_pos hn] at hbyte
    · rw [List.getElem?_eq_none (by rw [Block.length_eq]; omega),
        List.getElem?_eq_none (by rw [Block.length_eq]; omega)]
  · have hoff (d : Disk) (hd : ¬n < d.image.count) : d.peek n = Block.zero sectorSize := by
      rw [peek, Array.getD_eq_getD_getElem?, Array.getElem?_eq_none (Nat.not_lt.1 hd),
        Option.getD_none]
    rw [hoff a hn, hoff b (hcount ▸ hn)]

/-! ## Writes -/

@[simp] theorem info_putSector (d : Disk) (n : Nat) (s : Sector) :
    (d.putSector n s).info = d.info := rfl

@[simp] theorem count_putSector (d : Disk) (n : Nat) (s : Sector) :
    (d.putSector n s).image.count = d.image.count := SectorImage.count_put _ _ _

theorem peek_putSector_self {d : Disk} {n : Nat} (h : n < d.image.count) (s : Sector) :
    (d.putSector n s).peek n = s := by
  change (d.image.sectors.setIfInBounds n s).getD n (Block.zero sectorSize) = s
  have inside : n < d.image.sectors.size := h
  rw [Array.getD_eq_getD_getElem?, Array.getElem?_setIfInBounds, if_pos rfl, if_pos inside,
    Option.getD_some]

theorem peek_putSector_of_ne (d : Disk) {n m : Nat} (h : n ≠ m) (s : Sector) :
    (d.putSector n s).peek m = d.peek m := by
  change (d.image.sectors.setIfInBounds n s).getD m (Block.zero sectorSize) = d.peek m
  rw [Array.getD_eq_getD_getElem?, Array.getElem?_setIfInBounds, if_neg h, peek,
    Array.getD_eq_getD_getElem?]

/-- Of two writes to one place the last one counts. -/
theorem putSector_putSector (d : Disk) (n : Nat) (s t : Sector) :
    (d.putSector n s).putSector n t = d.putSector n t :=
  Disk.ext (congrArg SectorImage.mk (Array.setIfInBounds_setIfInBounds ..)) rfl rfl

theorem putSector_comm (d : Disk) {n m : Nat} (h : n ≠ m) (s t : Sector) :
    (d.putSector n s).putSector m t = (d.putSector m t).putSector n s :=
  Disk.ext (congrArg SectorImage.mk (Array.setIfInBounds_comm _ _ h)) rfl rfl

/-- Writing what is there changes nothing. -/
theorem putSector_peek (d : Disk) (n : Nat) : d.putSector n (d.peek n) = d := by
  refine Disk.ext (congrArg SectorImage.mk (Array.ext_getElem? fun m => ?_)) rfl rfl
  rw [Array.getElem?_setIfInBounds, peek, Array.getD_eq_getD_getElem?]
  split
  · rename_i hnm
    rw [← hnm]
    split
    · rename_i hlt
      rw [Array.getElem?_eq_getElem hlt, Option.getD_some]
    · rename_i hlt
      rw [Array.getElem?_eq_none (Nat.not_lt.1 hlt)]
  · rfl

theorem putSectors_cons (d : Disk) (w : Nat × Sector) (ws : List (Nat × Sector)) :
    d.putSectors (w :: ws) = (d.putSector w.1 w.2).putSectors ws := rfl

@[simp] theorem info_putSectors (d : Disk) (ws : List (Nat × Sector)) :
    (d.putSectors ws).info = d.info := by
  induction ws generalizing d with
  | nil => rfl
  | cons w ws ih => rw [putSectors_cons, ih, info_putSector]

@[simp] theorem count_putSectors (d : Disk) (ws : List (Nat × Sector)) :
    (d.putSectors ws).image.count = d.image.count := by
  induction ws generalizing d with
  | nil => rfl
  | cons w ws ih => rw [putSectors_cons, ih, count_putSector]

/-- A sector that no write of a list is made to stays as it was. -/
theorem peek_putSectors_of_forall_ne (d : Disk) {ws : List (Nat × Sector)} {m : Nat}
    (h : ∀ w ∈ ws, w.1 ≠ m) : (d.putSectors ws).peek m = d.peek m := by
  induction ws generalizing d with
  | nil => rfl
  | cons w ws ih =>
      rw [putSectors_cons, ih _ fun v hv => h v (List.mem_cons_of_mem _ hv),
        peek_putSector_of_ne d (h w List.mem_cons_self)]

/-- Sectors written to distinct places are read back. -/
theorem map_peek_putSectors (d : Disk) {places : List Nat} {sectors : List Sector}
    (hlen : places.length = sectors.length) (hnodup : places.Nodup)
    (hlt : ∀ n ∈ places, n < d.image.count) :
    places.map (d.putSectors (places.zip sectors)).peek = sectors := by
  induction places generalizing d sectors with
  | nil => exact (List.eq_nil_of_length_eq_zero hlen.symm).symm
  | cons n places ih =>
      cases sectors with
      | nil => cases hlen
      | cons s sectors =>
          rw [List.nodup_cons] at hnodup
          have hself : ((d.putSector n s).putSectors (places.zip sectors)).peek n = s := by
            rw [peek_putSectors_of_forall_ne, peek_putSector_self (hlt n List.mem_cons_self)]
            rintro ⟨m, t⟩ hw rfl
            exact hnodup.1 (List.of_mem_zip hw).1
          rw [List.zip_cons_cons, putSectors_cons, List.map_cons, hself,
            ih (d.putSector n s) (Nat.succ.inj hlen) hnodup.2
              fun m hm => by rw [count_putSector]; exact hlt m (List.mem_cons_of_mem _ hm)]

theorem peek_putBitmap_of_ne (d : Disk) {m : Nat} (h : infoSector ≠ m) (map : Bitmap) :
    (d.putBitmap map).peek m = d.peek m := by
  let info : Info := { d.info with bitmap := map.toBytes }
  exact peek_putSector_of_ne d h info.toSector

theorem bitmap_putBitmap (d : Disk) {map : Bitmap} (h : map.bits.size = maxSectors) :
    (d.putBitmap map).bitmap = map := Bitmap.ofBytes_toBytes h

/-! ## The index -/

/-- The sectors that the index lists. -/
def pointers (d : Disk) : List Nat := Index.pointers (d.peek indexSector).bytes

/-- The file whose descriptor record a sector holds. -/
def entryAt (d : Disk) (p : Nat) : Entry := ⟨p, Descriptor.ofSector (d.peek p)⟩

/-- The files that the index lists, in its order. -/
def files (d : Disk) : List Entry := d.pointers.map d.entryAt

theorem map_sector_files (d : Disk) : d.files.map (·.sector) = d.pointers := by
  rw [files, List.map_map]
  exact List.map_id _

theorem mem_files {d : Disk} {e : Entry} :
    e ∈ d.files ↔ e.sector ∈ d.pointers ∧ e = d.entryAt e.sector := by
  rw [files, List.mem_map]
  constructor
  · rintro ⟨p, hp, rfl⟩
    exact ⟨hp, rfl⟩
  · rintro ⟨hp, he⟩
    exact ⟨e.sector, hp, he.symm⟩

theorem file_of_mem_files {d : Disk} {e : Entry} (h : e ∈ d.files) :
    e.file = Descriptor.ofSector (d.peek e.sector) := by
  rw [(mem_files.1 h).2]; rfl

theorem entries_eq_ok {d : Disk} {fs : List Entry} :
    d.entries = .ok fs ↔ (∀ p ∈ d.pointers, p < d.total) ∧ fs = d.files := by
  have hp : Index.pointers (d.sectorAt indexSector d.indexSector_lt_total).bytes = d.pointers := by
    rw [sectorAt_eq_peek]; rfl
  have hall (h : ∀ p ∈ d.pointers, p < d.total) : d.entries = .ok d.files := by
    rw [entries, hp, files]
    refine Result.mapM_eq_ok fun p hmem => ?_
    rw [dif_pos (h p hmem), sectorAt_eq_peek]; rfl
  constructor
  · intro h
    have hlt : ∀ p ∈ d.pointers, p < d.total := by
      intro p hmem
      rw [entries, hp] at h
      obtain ⟨e, he⟩ := Result.exists_ok_of_mapM_eq_ok h hmem
      by_cases hlt : p < d.total
      · exact hlt
      · rw [dif_neg hlt] at he; cases he
    rw [hall hlt] at h
    exact ⟨hlt, (Except.ok.inj h).symm⟩
  · rintro ⟨hlt, rfl⟩
    exact hall hlt

theorem find_eq {d : Disk} {fs : List Entry} (h : d.entries = .ok fs) (name : String) :
    d.find name = match fs.find? (·.file.fileName == name) with
      | some e => .ok e
      | none => .error (.fileNotFound name) := by
  rw [find, h]; rfl

/-- The index that is written for files lists their sectors, in the order of their names. -/
theorem pointers_putIndex {d : Disk} {fs : List Entry} (hlen : fs.length ≤ Index.maxFiles)
    (hsec : ∀ e ∈ fs, firstFileSector ≤ e.sector ∧ e.sector < maxSectors) :
    (d.putIndex fs).pointers
      = (Index.sort (fs.map fun e => (e.file.fileName, e.sector))).map (·.2) := by
  have hperm := Index.sort_perm (fs.map fun e => (e.file.fileName, e.sector))
  rw [pointers, putIndex, peek_putSector_self (lt_count_of_lt_total d.indexSector_lt_total),
    Index.build, Index.pointers_sector]
  · rw [hperm.length_eq, List.length_map]; exact hlen
  · intro f hf
    obtain ⟨e, he, rfl⟩ := List.mem_map.1 (hperm.mem_iff.1 hf)
    obtain ⟨hfirst, hlt⟩ := hsec e he
    exact ⟨Nat.lt_of_lt_of_le (by decide) hfirst, Nat.lt_trans hlt (by decide)⟩

theorem pointers_putIndex_perm {d : Disk} {fs : List Entry} (hlen : fs.length ≤ Index.maxFiles)
    (hsec : ∀ e ∈ fs, firstFileSector ≤ e.sector ∧ e.sector < maxSectors) :
    (d.putIndex fs).pointers.Perm (fs.map (·.sector)) := by
  rw [pointers_putIndex hlen hsec]
  have h := (Index.sort_perm (fs.map fun e => (e.file.fileName, e.sector))).map (·.2)
  rwa [List.map_map] at h

theorem pointers_putBitmap (d : Disk) (map : Bitmap) : (d.putBitmap map).pointers = d.pointers := by
  rw [pointers, pointers, peek_putBitmap_of_ne _ (by decide)]

/-! ## Sectors for files

The information block and the index lie before them. -/

theorem peek_putBitmap (d : Disk) {s : Nat} (h : firstFileSector ≤ s) (map : Bitmap) :
    (d.putBitmap map).peek s = d.peek s :=
  d.peek_putBitmap_of_ne (Nat.ne_of_lt (Nat.lt_of_lt_of_le (by decide) h)) map

theorem peek_putIndex (d : Disk) {s : Nat} (h : firstFileSector ≤ s) (fs : List Entry) :
    (d.putIndex fs).peek s = d.peek s :=
  d.peek_putSector_of_ne (Nat.ne_of_lt (Nat.lt_of_lt_of_le (by decide) h)) _

theorem pointers_putDescriptor (d : Disk) {s : Nat} (h : s ≠ indexSector) (file : Descriptor) :
    (d.putDescriptor s file).pointers = d.pointers := by
  rw [pointers, pointers, putDescriptor, peek_putSector_of_ne _ h]

/-! ## The data of a file -/

theorem readData_eq_ok {d : Disk} {file : Descriptor} (h : ∀ s ∈ file.sectors, s < d.image.count) :
    d.readData file = .ok (file.sectors.map fun s => (d.peek s).bytes) := by
  refine Result.mapM_eq_ok fun s hs => ?_
  rw [read_eq_peek (h s hs)]; rfl

end TiBench.Volume.Disk
