import TiBench.Proofs.Disk.Outcome

/-!
# Runs of operations

The operations on a disk as data, and what holds of a disk after any of them in any order: a disk
that was consistent stays consistent, whether an operation is refused or not.
-/

namespace TiBench.Volume

/-- An operation with its arguments. -/
inductive Operation where
  | add (name : String) (data : Bytes) (format : FileFormat)
  | addRecords (name : String) (records : List Bytes) (format : FileFormat)
  | addSpecial (name : String) (raw : Bytes) (format : FileFormat) (count : UInt16)
  | delete (name : String)
  | rename (old new : String)
  | protect (name : String) (on : Bool)
  | setClock (t : Timestamp)

namespace Disk

/-- What an operation leaves behind. -/
def apply (d : Disk) : Operation → Change
  | .add name data f => d.add name data f
  | .addRecords name records f => d.addRecords name records f
  | .addSpecial name raw f count => d.addSpecial name raw f count
  | .delete name => d.delete name
  | .rename old new => d.rename old new
  | .protect name on => d.protect name on
  | .setClock t => ⟨d.setClock t, none⟩

/-- The disk after operations one after the other. One that is refused does not end the run. -/
def run (d : Disk) (ops : List Operation) : Disk := ops.foldl (fun d op => (d.apply op).disk) d

variable {d d' : Disk}

@[simp] theorem run_cons (d : Disk) (op : Operation) (ops : List Operation) :
    d.run (op :: ops) = (d.apply op).disk.run ops := rfl

/-- The disk with a new file of these contents, or of none if they could not be made. -/
def adding (d : Disk) (name : String) (f : FileFormat) (c : Except VolumeError Contents) : Change :=
  .ofExcept d (c >>= d.addFile name f)

/-- Records as the contents of a file. -/
def contentsOfRecords (f : FileFormat) (records : List Bytes) : Except VolumeError Contents := do
  let encoded ← (f.encode records).mapError .record
  return ⟨encoded.sectors, encoded.eof, encoded.count, 0⟩

theorem contentsOfRecords_eq_ok {f : FileFormat} {records : List Bytes} {c : Contents} :
    contentsOfRecords f records = .ok c
      ↔ ∃ e, f.encode records = .ok e ∧ c = ⟨e.sectors, e.eof, e.count, 0⟩ := by
  simp only [contentsOfRecords, Result.bind_eq_ok, Result.mapError_eq_ok]
  constructor
  · rintro ⟨e, he, h⟩
    exact ⟨e, he, (Except.ok.inj h).symm⟩
  · rintro ⟨e, he, rfl⟩
    exact ⟨e, he, rfl⟩

theorem add_eq (name : String) (data : Bytes) (f : FileFormat) :
    d.add name data f = d.adding name f (contentsOf f data) := rfl

theorem addRecords_eq (name : String) (records : List Bytes) (f : FileFormat) :
    d.addRecords name records f = d.adding name f (contentsOfRecords f records) := by
  rw [addRecords, adding, contentsOfRecords]
  cases (f.encode records).mapError VolumeError.record <;> rfl

theorem addSpecial_eq (name : String) (raw : Bytes) (f : FileFormat) (count : UInt16) :
    d.addSpecial name raw f count = d.adding name f (.ok ⟨sectorsOf raw, eofOf raw, count, 0⟩) :=
  rfl

theorem adding_added (hd : d.Consistent) {name : String} {f : FileFormat}
    {c : Except VolumeError Contents} (h : (d.adding name f c).error? = none) :
    ∃ contents field p, c = .ok contents ∧ packName name = some field
      ∧ (∀ e ∈ d.files, e.file.fileName ≠ name) ∧ d.place? contents.sectors.length = some p
      ∧ (d.newDescriptor field f contents p.data).sectors = p.data
      ∧ Added d (d.adding name f c).disk p contents.sectors
        (d.newDescriptor field f contents p.data) := by
  obtain ⟨contents, hc, hadd⟩ := Result.bind_eq_ok.1 (Change.eq_ok_of_ofExcept h)
  obtain ⟨field, p, hrest⟩ := addFile_added hd hadd
  exact ⟨contents, field, p, hc, hrest⟩

/-! ## Refused operations -/

/-- An operation that is refused leaves the disk as it was. Renaming writes before it reads the
index again, so there the index must not be taken for a file. -/
theorem disk_apply_of_refused {op : Operation}
    (hindex : ∀ old new, op = .rename old new → indexSector ∉ d.pointers)
    (h : (d.apply op).error? ≠ none) : (d.apply op).disk = d := by
  cases op with
  | add name data f => exact Change.disk_eq_of_ofExcept h
  | addRecords name records f => exact Change.disk_eq_of_ofExcept h
  | addSpecial name raw f count => exact Change.disk_eq_of_ofExcept h
  | delete name => exact Change.disk_eq_of_ofExcept h
  | rename old new => exact disk_rename_of_refused (hindex old new rfl) h
  | protect name on => exact Change.disk_eq_of_ofExcept h
  | setClock t => exact absurd rfl h

/-! ## Consistency along a run -/

theorem Consistent.adding (hd : d.Consistent) (name : String) (f : FileFormat)
    (c : Except VolumeError Contents) : (d.adding name f c).disk.Consistent := by
  by_cases h : (d.adding name f c).error? = none
  · obtain ⟨_, _, _, -, -, -, hplace, hfile, hadded⟩ := adding_added hd h
    exact hadded.consistent hd (fits_of_place? hplace) hfile
  · rw [Disk.adding, Change.disk_eq_of_ofExcept h]; exact hd

/-- One operation keeps a disk consistent. -/
theorem Consistent.apply (hd : d.Consistent) (op : Operation) : (d.apply op).disk.Consistent := by
  by_cases h : (d.apply op).error? = none
  · cases op with
    | add name data f => exact hd.adding name f _
    | addRecords name records f => rw [Disk.apply, addRecords_eq]; exact hd.adding name f _
    | addSpecial name raw f count => rw [Disk.apply, addSpecial_eq]; exact hd.adding name f _
    | delete name =>
        obtain ⟨e, -, -, hremoved⟩ := delete_removed hd h
        exact hremoved.consistent hd
    | rename old new =>
        obtain ⟨field, e, -, he, -, hrewritten⟩ := rename_rewritten hd h
        refine hrewritten.consistent hd ?_
        rw [(entryAt_of_find he).2]; rfl
    | protect name on =>
        obtain ⟨e, he, hrewritten⟩ := protect_rewritten hd h
        refine hrewritten.consistent hd ?_
        rw [(entryAt_of_find he).2]; rfl
    | setClock t => exact hd.of_perm rfl rfl (.refl _)
  · rw [disk_apply_of_refused (fun _ _ _ => hd.indexSector_not_mem_pointers) h]; exact hd

/-- Operations in any order keep a disk consistent. -/
theorem Consistent.run (hd : d.Consistent) (ops : List Operation) : (d.run ops).Consistent := by
  induction ops generalizing d with
  | nil => exact hd
  | cons op ops ih => exact ih (hd.apply op)

/-! ## Blank disks -/

theorem init_eq_ok {clock : Timestamp} {name : String} {sectors : Nat} {sides density : UInt8}
    (h : init clock name sectors sides density = .ok d) :
    d.total = sectors ∧ d.peek indexSector = Block.zero sectorSize
      ∧ d.bitmap = ((Bitmap.blank sectors).mark infoSector true).mark indexSector true := by
  unfold init at h
  split at h
  · cases h
  · split at h
    · rename_i field _ hgeometry
      have hfirst := hgeometry.1
      have htotal : (UInt16.ofNat sectors).toNat = sectors :=
        UInt16.toNat_ofNat_of_lt' (Nat.lt_of_le_of_lt hgeometry.2.1 (by decide))
      obtain rfl := Except.ok.inj h
      refine ⟨htotal, ?_, Bitmap.ofBytes_toBytes ?_⟩
      · have hindex : indexSector < sectors := Nat.lt_trans (by decide) hfirst
        change ((SectorImage.blank sectors).sectors.setIfInBounds infoSector _).getD indexSector
          (Block.zero sectorSize) = Block.zero sectorSize
        rw [Array.getD_eq_getD_getElem?, Array.getElem?_setIfInBounds, if_neg (by decide),
          SectorImage.blank, Array.getElem?_replicate, if_pos hindex, Option.getD_some]
      · rw [Bitmap.size_mark, Bitmap.size_mark, Bitmap.size_blank]
    · cases h

/-- A blank disk is consistent: its first two sectors are in use, and it has no files. -/
theorem consistent_init {clock : Timestamp} {name : String} {sectors : Nat} {sides density : UInt8}
    (h : init clock name sectors sides density = .ok d) : d.Consistent ∧ d.files = [] := by
  obtain ⟨htotal, hindex, hbitmap⟩ := init_eq_ok h
  have hpointers : d.pointers = [] := by rw [pointers, hindex]; decide
  have howned : d.ownedSectors = [infoSector, indexSector] := by
    rw [ownedSectors, hpointers, List.flatMap_nil]
  refine ⟨⟨?_, fun s hs => ?_, fun s hs => ?_⟩, by rw [files, hpointers, List.map_nil]⟩
  · rw [howned]; decide
  · rw [howned, List.mem_cons, List.mem_singleton] at hs
    rcases hs with rfl | rfl
    · exact Nat.lt_trans (by decide) d.describes_files
    · exact d.indexSector_lt_total
  · have hfree : (Bitmap.blank sectors).isUsed s = false := by
      rw [Bitmap.isUsed_blank (htotal ▸ d.total_le_max)]
      exact decide_eq_false (by omega)
    rw [hbitmap, Bitmap.isUsed_mark_true, Bitmap.isUsed_mark_true, hfree, howned, List.mem_cons,
      List.mem_singleton, or_comm (a := s = indexSector)]
    simp only [Bool.false_eq_true, or_false]

end Disk

end TiBench.Volume
