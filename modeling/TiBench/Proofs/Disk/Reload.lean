import TiBench.Proofs.Info
import TiBench.Proofs.SectorImage
import TiBench.Proofs.Disk.Operation

/-!
# Saving and loading a disk

Sector zero of a disk says what the disk knows of its volume, whatever was done to it, so that the
bytes of its image make the same disk again.
-/

namespace TiBench.Volume.Disk

variable {d d' : Disk}

/-- Sector zero of the image says what is known of the volume, which is marked as formatted. -/
structure Saved (d : Disk) : Prop where
  peek_info : d.peek infoSector = d.info.toSector
  signature_eq : d.info.signature = Info.formatted

theorem infoSector_lt_count (d : Disk) : infoSector < d.image.count :=
  lt_count_of_lt_total (Nat.lt_trans (by decide) d.describes_files)

theorem Saved.read_info (h : d.Saved) : d.image.read infoSector = .ok d.info.toSector := by
  rw [read_eq_peek d.infoSector_lt_count, h.peek_info]

/-! ## Writes -/

theorem Saved.putSector (h : d.Saved) {n : Nat} (hn : n ≠ infoSector) (s : Sector) :
    (d.putSector n s).Saved where
  peek_info := by rw [peek_putSector_of_ne _ hn, info_putSector]; exact h.peek_info
  signature_eq := h.signature_eq

/-- Writing the bitmap writes all of sector zero. -/
theorem saved_putBitmap (h : d.info.signature = Info.formatted) (m : Bitmap) :
    (d.putBitmap m).Saved where
  peek_info := peek_putSector_self d.infoSector_lt_count _
  signature_eq := h

/-- No file is listed in sector zero: a zero ends the index. -/
theorem ne_infoSector_of_mem_pointers {p : Nat} (h : p ∈ d.pointers) : p ≠ infoSector :=
  Index.ne_zero_of_mem_pointers h

theorem Saved.putDescriptor (h : d.Saved) {name : String} {e : Entry} (he : d.find name = .ok e)
    (file : Descriptor) : (d.putDescriptor e.sector file).Saved :=
  h.putSector (ne_infoSector_of_mem_pointers (entryAt_of_find he).1) _

/-! ## Operations -/

namespace Saved

theorem adding (h : d.Saved) (name : String) (f : FileFormat) (c : Except VolumeError Contents) :
    (d.adding name f c).disk.Saved := by
  by_cases haccepted : (d.adding name f c).error? = none
  · obtain ⟨contents, -, hadd⟩ := Result.bind_eq_ok.1 (Change.eq_ok_of_ofExcept haccepted)
    obtain ⟨field, fs, p, -, -, -, -, -, -, hdisk⟩ := addFile_eq_ok hadd
    change (d.adding name f c).disk = _ at hdisk
    rw [hdisk, withFile]
    refine saved_putBitmap ?_ _
    change (d.putSectors _).info.signature = Info.formatted
    rw [info_putSectors]; exact h.signature_eq
  · rw [Disk.adding, Change.disk_eq_of_ofExcept haccepted]; exact h

theorem delete (h : d.Saved) (name : String) : (d.delete name).disk.Saved := by
  cases he : d.find name with
  | error err => rw [Disk.delete, he]; exact h
  | ok e =>
      rw [delete_eq he]
      split
      · exact h
      · exact saved_putBitmap (d := d.putIndex _) h.signature_eq _

theorem rename (h : d.Saved) (old new : String) : (d.rename old new).disk.Saved := by
  cases hname : packName new with
  | none => rw [Disk.rename, hname]; exact h
  | some field =>
      cases he : d.find old with
      | error err => rw [Disk.rename, hname, he]; exact h
      | ok e =>
          have hrecord := h.putDescriptor he { e.file with name := field }
          rw [rename_eq hname he]
          split
          · exact h
          · split
            · exact hrecord
            · exact hrecord.putSector (by decide) _

theorem protect (h : d.Saved) (name : String) (on : Bool) : (d.protect name on).disk.Saved := by
  cases he : d.find name with
  | error err => rw [Disk.protect, he]; exact h
  | ok e => rw [protect_eq he]; exact h.putDescriptor he _

/-- An operation keeps sector zero and what is known of the volume alike. -/
theorem apply (h : d.Saved) (op : Operation) : (d.apply op).disk.Saved := by
  cases op with
  | add name data f => exact h.adding name f _
  | addRecords name records f => rw [Disk.apply, addRecords_eq]; exact h.adding name f _
  | addSpecial name raw f count => rw [Disk.apply, addSpecial_eq]; exact h.adding name f _
  | delete name => exact h.delete name
  | rename old new => exact h.rename old new
  | protect name on => exact h.protect name on
  | setClock t => exact ⟨h.peek_info, h.signature_eq⟩

theorem run (h : d.Saved) (ops : List Operation) : (d.run ops).Saved := by
  induction ops generalizing d with
  | nil => exact h
  | cons op ops ih => exact ih (h.apply op)

end Saved

/-! ## Loading -/

theorem saved_init {clock : Timestamp} {name : String} {sectors : Nat} {sides density : UInt8}
    (h : init clock name sectors sides density = .ok d) : d.Saved := by
  unfold init at h
  split at h
  · cases h
  · split at h
    · rename_i field _ hgeometry
      obtain rfl := Except.ok.inj h
      refine ⟨?_, rfl⟩
      have hfirst : infoSector < (SectorImage.blank sectors).sectors.size := by
        change infoSector < (SectorImage.blank sectors).count
        rw [SectorImage.count_blank]; exact Nat.lt_trans (by decide) hgeometry.1
      change ((SectorImage.blank sectors).sectors.setIfInBounds infoSector _).getD infoSector
        (Block.zero sectorSize) = _
      rw [Array.getD_eq_getD_getElem?, Array.getElem?_setIfInBounds, if_pos rfl, if_pos hfirst,
        Option.getD_some]
    · cases h

theorem ofImage_eq_ok {clock : Timestamp} {image : SectorImage} :
    ofImage clock image = .ok d ↔ d.Saved ∧ d.image = image ∧ d.clock = clock := by
  constructor
  · intro h
    rw [ofImage, readInfo] at h
    split at h
    · cases h
    · rename_i s hs
      split at h
      · rename_i hdescribes
        obtain rfl := Except.ok.inj h
        refine ⟨⟨?_, hdescribes.1⟩, rfl, rfl⟩
        have hcount : infoSector < image.count :=
          Nat.lt_of_lt_of_le (Nat.lt_trans (by decide) hdescribes.2.1) hdescribes.2.2.1
        rw [SectorImage.read_eq hcount] at hs
        change image.sectors.getD infoSector (Block.zero sectorSize) = (Info.ofSector s).toSector
        rw [Info.toSector_ofSector, Except.ok.inj hs]
      · cases h
  · rintro ⟨h, rfl, rfl⟩
    have hinfo : Info.ofSector (d.image.sectors.getD infoSector (Block.zero sectorSize))
        = d.info := by
      rw [← Info.ofSector_toSector d.info, ← h.peek_info]; rfl
    have hdescribes : (Info.ofSector
        (d.image.sectors.getD infoSector (Block.zero sectorSize))).Describes d.image.count := by
      rw [hinfo]
      exact ⟨h.signature_eq, d.describes_files, d.total_le_count, d.total_le_max⟩
    rw [ofImage, readInfo, SectorImage.read_eq d.infoSector_lt_count]
    dsimp only
    rw [dif_pos hdescribes]
    exact congrArg Except.ok (Disk.ext rfl hinfo rfl)

theorem ofBytes_eq_ok {clock : Timestamp} {data : Bytes} :
    ofBytes clock data = .ok d ↔ d.Saved ∧ d.toBytes = data ∧ d.clock = clock := by
  constructor
  · intro h
    rw [ofBytes] at h
    split at h
    · cases h
    · rename_i image himage
      obtain ⟨hsaved, rfl, hclock⟩ := ofImage_eq_ok.1 h
      exact ⟨hsaved, (SectorImage.toBytes_of_ofBytes himage).2, hclock⟩
  · rintro ⟨hsaved, rfl, hclock⟩
    have hcount : 0 < d.image.count := Nat.lt_of_le_of_lt (Nat.zero_le _) d.infoSector_lt_count
    rw [ofBytes, toBytes, SectorImage.ofBytes_toBytes hcount]
    exact ofImage_eq_ok.2 ⟨hsaved, rfl, hclock⟩

/-- The bytes of a disk make the same disk again, at any time. -/
theorem Saved.ofBytes_toBytes (h : d.Saved) (clock : Timestamp) :
    ofBytes clock d.toBytes = .ok (d.setClock clock) :=
  ofBytes_eq_ok.2 ⟨⟨h.peek_info, h.signature_eq⟩, rfl, rfl⟩

end TiBench.Volume.Disk
