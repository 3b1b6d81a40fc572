import TiBench.Proofs.Disk.Listing
import TiBench.Proofs.Disk.Twins

/-!
# What the clock influences

The same operations at other times give a disk that differs in timestamps alone: in those that its
descriptor records have, or had before they were deleted or overwritten.
-/

namespace TiBench.Volume.Disk

variable {a b : Disk} {dated : List Nat}

/-- Two disks on which all is the same but timestamps, and these differ in the listed sectors at
most. -/
structure DatesApart (a b : Disk) (dated : List Nat) : Prop where
  info_eq : b.image.read infoSector = a.image.read infoSector
  index_eq : b.image.read indexSector = a.image.read indexSector
  extract_eq : ∀ name, b.extract name = a.extract name
  records_eq : ∀ name, b.extractRecords name = a.extractRecords name
  format_eq : ∀ name, b.formatOf name = a.formatOf name
  check_eq : b.check = a.check
  freeSectors_eq : b.freeSectors = a.freeSectors
  list_eq : ∃ rows rows', a.list = .ok rows ∧ b.list = .ok rows'
    ∧ rows'.map CatalogRow.undated = rows.map CatalogRow.undated
  length_eq : b.toBytes.length = a.toBytes.length
  bytes_eq : ∀ i, b.toBytes[i]? ≠ a.toBytes[i]? →
    ∃ n ∈ dated, n * sectorSize + 0x14 ≤ i ∧ i < n * sectorSize + 0x1c
  catalog_eq : ∃ text text', a.catalogText = .ok text ∧ b.catalogText = .ok text'
    ∧ Compare.compareText text text' (.leading 50) = .ok ()

namespace Twins

theorem read_eq (h : Twins a b dated) {n : Nat} (hn : n < firstFileSector) :
    b.image.read n = a.image.read n := by
  have hcount (d : Disk) : n < d.image.count :=
    lt_count_of_lt_total (Nat.lt_of_lt_of_le hn (Nat.le_of_lt d.describes_files))
  rw [read_eq_peek (hcount a), read_eq_peek (hcount b), h.peek_eq_of_lt hn]

theorem length_toBytes (h : Twins a b dated) : b.toBytes.length = a.toBytes.length := by
  rw [toBytes, toBytes, SectorImage.length_toBytes, SectorImage.length_toBytes, h.count_eq]

/-- Where the bytes of the images differ, there is a timestamp in one of the listed sectors. -/
theorem mem_dated_of_ne (h : Twins a b dated) {i : Nat} (hi : b.toBytes[i]? ≠ a.toBytes[i]?) :
    i / sectorSize ∈ dated ∧ b.peek (i / sectorSize) ≠ a.peek (i / sectorSize)
      ∧ Descriptor.timestampOffset ≤ i % sectorSize
      ∧ i % sectorSize < Descriptor.timestampOffset + Descriptor.timestampSize := by
  have hdiffer : (b.peek (i / sectorSize)).bytes[i % sectorSize]?
      ≠ (a.peek (i / sectorSize)).bytes[i % sectorSize]? := by
    intro hsame
    rw [getElem?_toBytes, getElem?_toBytes, h.count_eq, hsame] at hi
    exact hi rfl
  have hpeek : b.peek (i / sectorSize) ≠ a.peek (i / sectorSize) :=
    fun hsame => hdiffer (by rw [hsame])
  refine ⟨by_contra fun hmem => hpeek (h.peek_eq _ hmem), hpeek, ?_⟩
  by_contra hout
  exact hdiffer (Descriptor.getElem?_of_undated_eq (h.undated_eq _) (by omega))

theorem rows_eq (h : Twins a b dated) (hreading : b.reading = a.reading) :
    b.listedRows.map CatalogRow.undated = a.listedRows.map CatalogRow.undated := by
  have hrows := congrArg (List.map fun e : Entry =>
    (listedRow e.file (a.reading e.file.fileName)).undated) h.files_eq
  simp only [List.map_map, Function.comp_def, Entry.undated, Descriptor.fileName_undated,
    undated_listedRow] at hrows
  simp only [listedRows, List.map_map, Function.comp_def, hreading]
  exact hrows

theorem datesApart (h : Twins a b dated) (ha : a.Clean) (hb : b.Clean) (hstored : a.Storable)
    (hreading : b.reading = a.reading) : DatesApart a b dated := by
  have hrows := h.rows_eq hreading
  have hfree : b.freeSectors = a.freeSectors := by
    rw [freeSectors, freeSectors, h.bitmap_eq, h.total_eq]
  constructor
  case info_eq => exact h.read_eq (by decide)
  case index_eq => exact h.read_eq (by decide)
  case extract_eq => exact fun name => congrArg (fun r => (r name).payload) hreading
  case records_eq => exact fun name => congrArg (fun r => (r name).records) hreading
  case format_eq => exact fun name => congrArg (fun r => (r name).format) hreading
  case check_eq => rw [ha.check, hb.check]
  case freeSectors_eq => exact hfree
  case list_eq => exact ⟨_, _, Disk.list_eq ha, Disk.list_eq hb, hrows⟩
  case length_eq => exact h.length_toBytes
  case bytes_eq =>
    intro i hi
    obtain ⟨hmem, -, hlow, hhigh⟩ := h.mem_dated_of_ne hi
    have hsplit := Nat.div_add_mod' i sectorSize
    simp only [Descriptor.timestampOffset, Descriptor.timestampSize] at hlow hhigh
    exact ⟨_, hmem, by omega, by omega⟩
  case catalog_eq =>
    have hvolume : b.volumeName = a.volumeName := by rw [volumeName, volumeName, h.info_eq]
    have hused : b.usedSectors = a.usedSectors := by
      rw [usedSectors, usedSectors, hfree, h.total_eq]
    have hstored' : b.Storable := by rw [Storable, h.names_eq]; exact hstored
    refine ⟨_, _, catalogText_eq ha, catalogText_eq hb, ?_⟩
    rw [hvolume, hused, hfree]
    refine compareText_catalog hrows (fun row hrow => ?_) _ _ _
    exact (List.mem_append.1 hrow).elim (hstored.plain_listedRows row)
      (hstored'.plain_listedRows row)

end Twins

/-- Two runs of the same operations from the same blank disk, each operation at any time: it is
refused in both runs for the same reason or in neither, and after each the two disks differ in
timestamps alone, in sectors to which descriptor records were written. -/
theorem clock_dates_only {clock clock' : Timestamp} {name : String} {sectors : Nat}
    {sides density : UInt8} (ha : init clock name sectors sides density = .ok a)
    (hb : init clock' name sectors sides density = .ok b) {steps steps' : List Timed}
    (hsteps : steps'.map Timed.operation = steps.map Timed.operation) :
    b.errors steps' = a.errors steps ∧ ∀ k, DatesApart (a.runAt (steps.take k))
      (b.runAt (steps'.take k)) (a.recordsAlong (steps.take k)) := by
  have hclean := clean_init ha
  have hclean' := clean_init hb
  refine ⟨(twins_runAt ha hb hsteps).1, fun k => ?_⟩
  have htake : (steps'.take k).map Timed.operation = (steps.take k).map Timed.operation := by
    rw [List.map_take, List.map_take, hsteps]
  obtain ⟨-, htwins, hreading⟩ := twins_runAt ha hb htake
  exact htwins.datesApart (hclean.runAt _) (hclean'.runAt _)
    ((named_init ha).runAt hclean _).storable hreading

/-- A file is added and deleted again, years later the second time. -/
theorem clock_dates_only_later : ∃ a b,
    init .usual "WORK" 40 1 1 = .ok a ∧ init ⟨2031, 5, 6, 7, 8, 10⟩ "WORK" 40 1 1 = .ok b
    ∧ DatesApart (a.runAt [⟨.usual, .add "A" [0x61] .program⟩, ⟨.usual, .delete "A"⟩])
      (b.runAt [⟨⟨2031, 5, 6, 7, 8, 10⟩, .add "A" [0x61] .program⟩,
        ⟨⟨2031, 5, 6, 7, 8, 20⟩, .delete "A"⟩])
      (a.recordsAlong [⟨.usual, .add "A" [0x61] .program⟩, ⟨.usual, .delete "A"⟩]) := by
  obtain ⟨a, ha, -⟩ : ∃ a, init .usual "WORK" 40 1 1 = .ok a ∧ true = true :=
    Result.exists_ok_of_any (by decide +kernel)
  obtain ⟨b, hb, -⟩ : ∃ b, init ⟨2031, 5, 6, 7, 8, 10⟩ "WORK" 40 1 1 = .ok b ∧ true = true :=
    Result.exists_ok_of_any (by decide +kernel)
  have hsteps : [Timed.mk ⟨2031, 5, 6, 7, 8, 10⟩ (.add "A" [0x61] .program),
      ⟨⟨2031, 5, 6, 7, 8, 20⟩, .delete "A"⟩].map Timed.operation
      = [Timed.mk .usual (.add "A" [0x61] .program), ⟨.usual, .delete "A"⟩].map Timed.operation :=
    rfl
  exact ⟨a, b, ha, hb, (clock_dates_only ha hb hsteps).2 2⟩

end TiBench.Volume.Disk
