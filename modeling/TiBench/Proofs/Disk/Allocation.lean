import TiBench.Proofs.Disk.FirstFit
import TiBench.Proofs.Disk.Sectors
import TiBench.Proofs.Name
import TiBench.Proofs.Cluster

/-!
# Where a new file goes

The sectors that a search for a new file finds are free and distinct, and the bitmap that it leaves
marks these in addition. `addFile_eq_ok` states from this all that a file added to a disk depends
on.
-/

namespace TiBench.Volume.Disk

open scoped List

/-- The place is made of distinct free sectors of the volume, `n` of them for the data, and its
bitmap marks them. -/
structure Placement.Fits (d : Disk) (n : Nat) (p : Placement) : Prop where
  length_data : p.data.length = n
  nodup : (p.descriptor :: p.data).Nodup
  free : ∀ s ∈ p.descriptor :: p.data,
    firstFileSector ≤ s ∧ s < d.total ∧ d.bitmap.isUsed s = false
  bitmap_eq : p.bitmap = d.bitmap.markAll (p.descriptor :: p.data) true

theorem descriptor_of_place? {d : Disk} {n : Nat} {p : Placement} (h : d.place? n = some p) :
    d.bitmap.firstFree? firstFileSector d.total = some p.descriptor :=
  (d.bitmap.firstFree?_eq_head? _ _).trans (firstFit_of_place? h).1

theorem fits_of_place? {d : Disk} {n : Nat} {p : Placement} (h : d.place? n = some p) :
    p.Fits d n := by
  obtain ⟨s, rest, hfree, hn, rfl⟩ := exists_of_place? h
  -- The sectors that are taken are some of the free ones, in another order.
  have hperm : s :: dataOrder rest ~ d.freeList := hfree ▸ (dataOrder_perm rest).cons s
  have htaken : s :: d.firstFit n <+ s :: dataOrder rest := by
    rw [firstFit, hfree]
    exact (List.take_sublist n _).cons_cons s
  refine ⟨?_, ?_, fun t ht => ?_, rfl⟩
  · change (d.firstFit n).length = n
    rw [firstFit, hfree, List.tail_cons, List.length_take, length_dataOrder, Nat.min_eq_left hn]
  · exact (hperm.nodup_iff.2 (d.bitmap.nodup_free _ _)).sublist htaken
  · exact Bitmap.mem_free.1 (hperm.mem_iff.1 (htaken.subset ht))

/-! ## Adding a file -/

/-- The disk with a file in its place, and an index of the files before and this one. -/
def withFile (d : Disk) (p : Placement) (sectors : List Sector) (file : Descriptor)
    (fs : List Entry) : Disk :=
  (((d.putSectors (p.data.zip sectors)).putDescriptor p.descriptor file).putIndex
    (fs ++ [⟨p.descriptor, file⟩])).putBitmap p.bitmap

theorem addFile_of_packName {d : Disk} {name : String} (h : packName name = none) (f : FileFormat)
    (c : Contents) : d.addFile name f c = .error (.badName name) := by
  unfold addFile; rw [h]

theorem addFile_of_entries {d : Disk} {name : String} {field : Block nameSize} {e : VolumeError}
    (hname : packName name = some field) (h : d.entries = .error e) (f : FileFormat)
    (c : Contents) : d.addFile name f c = .error e := by
  unfold addFile; rw [hname, h]; rfl

theorem addFile_eq {d : Disk} {name : String} {field : Block nameSize} {fs : List Entry}
    (hname : packName name = some field) (hfs : d.entries = .ok fs) (f : FileFormat)
    (c : Contents) :
    d.addFile name f c =
      if fs.any (·.file.fileName == name) then .error (.nameConflict name)
      else if Index.maxFiles ≤ fs.length then .error .directoryFull
      else match d.place? c.sectors.length with
        | none => .error .diskFull
        | some p =>
          if Cluster.maxCount < (Cluster.ofSectors p.data).length then .error .diskFull
          else .ok (d.withFile p c.sectors (d.newDescriptor field f c p.data) fs) := by
  unfold addFile
  rw [hname, hfs]
  cases d.place? c.sectors.length <;> rfl

/-- A file is added if it has a new name that can be stored, and there is room in the index, on the
volume and in the descriptor. -/
theorem addFile_eq_ok {d d' : Disk} {name : String} {f : FileFormat} {c : Contents}
    (h : d.addFile name f c = .ok d') : ∃ field fs p, packName name = some field
      ∧ d.entries = .ok fs ∧ (∀ e ∈ fs, e.file.fileName ≠ name) ∧ fs.length < Index.maxFiles
      ∧ d.place? c.sectors.length = some p ∧ (Cluster.ofSectors p.data).length ≤ Cluster.maxCount
      ∧ d' = d.withFile p c.sectors (d.newDescriptor field f c p.data) fs := by
  cases hname : packName name with
  | none => rw [addFile_of_packName hname] at h; cases h
  | some field =>
      cases hfs : d.entries with
      | error e => rw [addFile_of_entries hname hfs] at h; cases h
      | ok fs =>
          rw [addFile_eq hname hfs] at h
          split at h
          · cases h
          · rename_i hnew
            split at h
            · cases h
            · rename_i hroom
              split at h
              · cases h
              · rename_i p hp
                split at h
                · cases h
                · rename_i hcount
                  refine ⟨field, fs, p, rfl, rfl, fun e he heq => hnew ?_, Nat.not_le.1 hroom, hp,
                    Nat.not_lt.1 hcount, (Except.ok.inj h).symm⟩
                  exact List.any_eq_true.2 ⟨e, he, beq_iff_eq.2 heq⟩

/-- Whether a file is added does not depend on the clock. -/
theorem addFile_setClock {d d' : Disk} {name : String} {f : FileFormat} {c : Contents}
    (h : d.addFile name f c = .ok d') (t : Timestamp) :
    ∃ d'', (d.setClock t).addFile name f c = .ok d'' := by
  obtain ⟨field, fs, p, hname, hfs, hnew, hroom, hp, hcount, -⟩ := addFile_eq_ok h
  have hfs' : (d.setClock t).entries = .ok fs := hfs
  have hp' : (d.setClock t).place? c.sectors.length = some p := hp
  have hany : ¬fs.any (·.file.fileName == name) = true := fun h => by
    obtain ⟨e, he, heq⟩ := List.any_eq_true.1 h
    exact hnew e he (eq_of_beq heq)
  refine ⟨(d.setClock t).withFile p c.sectors ((d.setClock t).newDescriptor field f c p.data) fs,
    ?_⟩
  rw [addFile_eq hname hfs', if_neg hany, if_neg (Nat.not_le.2 hroom), hp']
  exact if_neg (Nat.not_lt.2 hcount)

end TiBench.Volume.Disk
