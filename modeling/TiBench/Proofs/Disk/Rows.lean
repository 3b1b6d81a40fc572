import TiBench.Proofs.Disk.Ledger
import TiBench.Proofs.Timestamp
import Mathlib.Algebra.GroupWithZero.Nat

/-!
# The catalog and the ledger

The catalog of a disk that operations made of a blank one shows what the ledger says of each file,
and the sectors that it counts as used are those of its rows and the two that describe the volume.
-/

namespace TiBench.Volume

/-! ## Sectors in use -/

namespace Disk

open scoped List

variable {d : Disk}

theorem used_add_free (d : Disk) : d.usedSectors + d.freeSectors = d.total :=
  Nat.sub_add_cancel (d.bitmap.countFree_le d.total)

theorem usedSectors_eq_length (h : d.Consistent) : d.usedSectors = d.ownedSectors.length := by
  have hperm : (List.range d.total).filter d.bitmap.isUsed ~ d.ownedSectors := by
    refine (List.perm_ext_iff_of_nodup (List.nodup_range.filter _) h.nodup).2 fun s => ?_
    rw [List.mem_filter, List.mem_range]
    constructor
    · rintro ⟨hs, hused⟩
      exact (h.used_iff s hs).1 hused
    · intro hs
      exact ⟨h.lt_total s hs, (h.used_iff s (h.lt_total s hs)).2 hs⟩
  have hcount := d.bitmap.length_filter_isUsed_add_countFree d.total
  rw [hperm.length_eq, ← freeSectors] at hcount
  have hsum := d.used_add_free
  omega

theorem length_ownedSectors (d : Disk) : d.ownedSectors.length
    = 2 + (d.files.map fun e => e.file.sectors.length + 1).sum := by
  rw [ownedSectors, files, List.length_cons, List.length_cons, List.length_flatMap, List.map_map]
  exact Nat.add_comm _ 2

end Disk

/-! ## Rows -/

open Disk

/-- The row shows what the ledger says. -/
structure Filed.Shows (f : Filed) (row : CatalogRow) : Prop where
  sectors_eq : row.sectors = 1 + f.dataSectors
  bytes_eq : row.bytes = 256 * (row.sectors - 1)
  format_eq : row.format = f.format.text
  records_eq : row.records = f.records
  isProtected_eq : row.isProtected = f.isProtected
  /-- Two digits are kept of the year, and half the second. -/
  updated_eq : f.added.Valid → 1970 ≤ f.added.year ∧ f.added.year ≤ 2069 →
    row.updated = some f.added.rounded

theorem Disk.Describes.shows {f : Filed} {s : Stored} (h : Describes f s) (name : String) :
    f.Shows (listedRow s.file (s.reading name)) := by
  constructor
  case sectors_eq => exact (congrArg (· + 1) h.dataSectors_eq).trans (Nat.add_comm _ 1)
  case bytes_eq => exact Nat.mul_comm _ 256
  case format_eq =>
    change (s.file.format?.map FileFormat.text).getD "?" = _
    rw [h.format_eq]
    rfl
  case records_eq => exact (s.listedRecords_reading name).trans h.records_eq
  case isProtected_eq => exact h.isProtected_eq
  case updated_eq =>
    intro hvalid hyear
    change Timestamp.unpack s.file.updated = _
    rw [h.updated_eq, Timestamp.unpack_pack hvalid hyear]

theorem Ledger.Tells.usedSectors_eq {l : Ledger} {d : Disk} (h : l.Tells d) (hd : d.Clean) :
    d.usedSectors = 2 + (d.listedRows.map (·.sectors)).sum := by
  rw [usedSectors_eq_length hd.consistent, length_ownedSectors, listedRows, List.map_map]
  congr 2
  refine List.map_congr_left fun e he => ?_
  obtain ⟨f, -, hdescribes⟩ := h.filed e he
  have hlength := hdescribes.length_eq
  rw [stored, List.length_map] at hlength
  rw [hlength, ← hdescribes.dataSectors_eq]
  rfl

end TiBench.Volume
