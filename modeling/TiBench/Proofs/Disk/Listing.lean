import TiBench.Proofs.Catalog
import TiBench.Proofs.Disk.Timed

/-!
# Listing the files of a disk

On a clean disk, the catalog row of a file depends on its descriptor and on what reading it gives.
The names that operations give to files can all be stored, so that a row stays on its line.
-/

namespace TiBench.Volume

open Text (Plain)

/-! ## Names on one line -/

theorem plain_of_packName {name : String} (h : packName name ≠ none) : Plain name := by
  obtain ⟨field, hfield⟩ := Option.ne_none_iff_exists'.1 h
  obtain ⟨-, hbytes, -⟩ := packName_eq_some hfield
  have hascii : ∀ b ∈ Text.utf8 name, b < 0x80 := fun b hb =>
    UInt8.lt_trans (lt_of_isNameByte (hbytes b hb)).2 (by decide)
  intro c hc
  rw [← Text.map_ofAscii_utf8 hascii] at hc
  obtain ⟨b, hb, rfl⟩ := List.mem_map.1 hc
  have hlow := UInt8.lt_iff_toNat_lt.1 (lt_of_isNameByte (hbytes b hb)).1
  change 0x20 ≤ (Text.ofAscii b).toNat
  rw [Text.toNat_ofAscii (hascii b hb)]
  exact Nat.le_of_lt hlow

namespace Disk

variable {d d' : Disk}

/-- The names of all files can be stored. -/
def Storable (d : Disk) : Prop := ∀ name ∈ d.names, packName name ≠ none

/-- Each descriptor record has the name of its file as it is stored. -/
def Named (d : Disk) : Prop := ∀ e ∈ d.files, packName e.file.fileName = some e.file.name

theorem packName_fileName {name : String} {file : Descriptor} (h : packName name = some file.name) :
    packName file.fileName = some file.name := by
  rwa [Descriptor.fileName, unpackName_of_packName h]

theorem Exchanges.named {old new rest : List Entry} (h : Exchanges d d' old new rest)
    (hd : d.Named) (hnew : ∀ e ∈ new, packName e.file.fileName = some e.file.name) : d'.Named := by
  intro e he
  rcases List.mem_append.1 (h.files_perm'.mem_iff.1 he) with he | he
  · exact hnew e he
  · exact hd e (h.files_perm.mem_iff.2 (List.mem_append_right _ he))

namespace Named

theorem storable (hd : d.Named) : d.Storable := by
  intro name hname
  obtain ⟨e, he, rfl⟩ := mem_names.1 hname
  rw [hd e he]
  exact Option.some_ne_none _

theorem adding (hd : d.Named) (hcons : d.Consistent) {name : String} {f : FileFormat}
    {c : Except VolumeError Contents} (h : (d.adding name f c).error? = none) :
    (d.adding name f c).disk.Named := by
  obtain ⟨_, field, p, -, hpack, -, hplace, -, hadded⟩ := adding_added hcons h
  refine (hadded.exchanges hcons (fits_of_place? hplace)).named hd fun e he => ?_
  rw [List.mem_singleton.1 he]
  exact packName_fileName hpack

theorem apply (hd : d.Named) (hclean : d.Clean) (op : Operation) : (d.apply op).disk.Named := by
  have hcons := hclean.consistent
  by_cases h : (d.apply op).error? = none
  · cases op with
    | add name data f => exact hd.adding hcons h
    | addRecords name records f =>
        rw [Disk.apply, addRecords_eq] at h ⊢
        exact hd.adding hcons h
    | addSpecial name raw f count => exact hd.adding (c := .ok _) hcons h
    | delete name =>
        obtain ⟨_, -, hex⟩ := delete_exchanges hcons h
        exact hex.named hd fun _ he => absurd he List.not_mem_nil
    | rename old new =>
        obtain ⟨field, e, hpack, he, -, hrewritten⟩ := rename_rewritten hcons h
        refine (hrewritten.exchanges hcons (mem_files_of_find he).1).named hd fun f hf => ?_
        rw [List.mem_singleton.1 hf]
        exact packName_fileName hpack
    | protect name on =>
        obtain ⟨e, he, hrewritten⟩ := protect_rewritten hcons h
        refine (hrewritten.exchanges hcons (mem_files_of_find he).1).named hd fun f hf => ?_
        rw [List.mem_singleton.1 hf]
        exact hd e (mem_files_of_find he).1
    | setClock t => exact hd
  · rw [hclean.disk_apply_of_refused h]
    exact hd

theorem run (hd : d.Named) (hclean : d.Clean) (ops : List Operation) : (d.run ops).Named := by
  induction ops generalizing d with
  | nil => exact hd
  | cons op ops ih => exact ih (hd.apply hclean op) (hclean.apply op)

theorem runAt (hd : d.Named) (hclean : d.Clean) (steps : List Timed) : (d.runAt steps).Named := by
  induction steps generalizing d with
  | nil => exact hd
  | cons s steps ih =>
      exact ih (Named.apply (d := d.setClock s.time) hd (hclean.setClock s.time) s.operation)
        (hclean.applyAt s)

end Named

theorem named_init {clock : Timestamp} {name : String} {sectors : Nat} {sides density : UInt8}
    (h : init clock name sectors sides density = .ok d) : d.Named := by
  rw [Named, (consistent_init h).2]
  exact fun _ hmem => absurd hmem List.not_mem_nil

/-! ## Rows -/

/-- The records of a file as a catalog counts them. -/
def listedRecords (file : Descriptor) (r : Reading) : Nat :=
  match file.format? with
  | none | some .program => 0
  | some (.records f) =>
    match f.family, r.records with
    | .fixed, _ => file.count.toNat
    | .variable, .ok records => records.length
    | .variable, .error _ => 0

/-- The catalog row of a file. -/
def listedRow (file : Descriptor) (r : Reading) : CatalogRow where
  name := file.fileName
  sectors := file.dataSectors.toNat + 1
  format := (file.format?.map FileFormat.text).getD "?"
  bytes := file.dataSectors.toNat * sectorSize
  records := listedRecords file r
  isProtected := file.isProtected
  updated := Timestamp.unpack file.updated

theorem undated_listedRow (file : Descriptor) (r : Reading) :
    (listedRow file.undated r).undated = (listedRow file r).undated := by
  rw [CatalogRow.undated, CatalogRow.undated]
  rfl

theorem recordCount_eq (hd : d.Clean) {e : Entry} (he : e ∈ d.files) :
    d.recordCount e.file = .ok (listedRecords e.file (d.reading e.file.fileName)) := by
  rw [recordCount, listedRecords]
  cases hformat : e.file.format? with
  | none => rfl
  | some f =>
      cases f with
      | program => rfl
      | records f =>
          dsimp only
          rw [hd.reading_of_mem he, Stored.reading_of_records (s := d.stored e) hformat,
            readData_eq hd.consistent he]
          cases f.family <;> rfl

/-- The catalog rows of the files in the order of the index. -/
def listedRows (d : Disk) : List CatalogRow :=
  d.files.map fun e => listedRow e.file (d.reading e.file.fileName)

theorem list_eq (hd : d.Clean) : d.list = .ok d.listedRows := by
  rw [list, hd.consistent.entries_eq, Result.ok_bind]
  refine Result.mapM_eq_ok fun e he => ?_
  rw [row, recordCount_eq hd he]; rfl

theorem plain_listedRow {file : Descriptor} (h : packName file.fileName ≠ none) (r : Reading) :
    Plain (listedRow file r).text := by
  refine CatalogRow.plain_text (plain_of_packName h) ?_
  change Plain ((file.format?.map FileFormat.text).getD "?")
  cases file.format? with
  | none => exact Text.plain_of_all (by decide)
  | some f => exact f.plain_text

theorem catalogText_eq (hd : d.Clean) : d.catalogText
    = .ok (catalog d.volumeName d.listedRows d.usedSectors d.freeSectors) := by
  rw [catalogText, list_eq hd]; rfl

theorem Storable.plain_listedRows (hd : d.Storable) : ∀ row ∈ d.listedRows, Plain row.text := by
  intro row hrow
  obtain ⟨e, he, rfl⟩ := List.mem_map.1 hrow
  exact plain_listedRow (hd _ (mem_names.2 ⟨e, he, rfl⟩)) _

end Disk

end TiBench.Volume
