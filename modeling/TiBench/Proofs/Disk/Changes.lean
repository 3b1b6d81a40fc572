import TiBench.Proofs.Disk.Consistency
import Mathlib.Data.List.Perm.Subperm

/-!
# Changes of a disk

The three ways in which the operations change a disk: a file is added, a file is removed, or the
descriptor record of a file is written again. Each is told by what it touches, and each keeps a
disk consistent.
-/

namespace TiBench.Volume.Disk

open scoped List

variable {d d' : Disk}

/-- Of the sectors for files, the ones of a list are the only ones that changed. -/
structure Touches (d d' : Disk) (l : List Nat) : Prop where
  total_eq : d'.total = d.total
  peek_eq : ∀ s, firstFileSector ≤ s → s ∉ l → d'.peek s = d.peek s

namespace Touches

variable {l : List Nat}

theorem refl (d : Disk) (l : List Nat) : Touches d d l := ⟨rfl, fun _ _ _ => rfl⟩

theorem putSector {n : Nat} (h : Touches d d' l) (hn : n ∈ l ∨ n < firstFileSector) (s : Sector) :
    Touches d (d'.putSector n s) l := by
  refine ⟨h.total_eq, fun m hm hmem => ?_⟩
  have hne : n ≠ m := by
    rintro rfl
    rcases hn with hn | hn
    · exact hmem hn
    · omega
  rw [peek_putSector_of_ne _ hne, h.peek_eq m hm hmem]

theorem putSectors {ws : List (Nat × Sector)} (h : Touches d d' l) (hws : ∀ w ∈ ws, w.1 ∈ l) :
    Touches d (d'.putSectors ws) l := by
  refine ⟨?_, fun m hm hmem => ?_⟩
  · rw [total, info_putSectors]; exact h.total_eq
  · rw [peek_putSectors_of_forall_ne, h.peek_eq m hm hmem]
    exact fun w hw hwm => hmem (hwm ▸ hws w hw)

theorem putBitmap (h : Touches d d' l) (map : Bitmap) : Touches d (d'.putBitmap map) l := by
  refine ⟨h.total_eq, fun m hm hmem => ?_⟩
  rw [peek_putBitmap _ hm, h.peek_eq m hm hmem]

theorem holding_eq (h : Touches d d' l) {p : Nat} (hp : firstFileSector ≤ p) (hl : p ∉ l) :
    d'.holding p = d.holding p := holding_congr (h.peek_eq p hp hl)

end Touches

/-- What the files of a disk own besides those of another, the disk owns besides the other. -/
theorem ownedSectors_perm {l : List Nat}
    (h : d'.pointers.flatMap d'.holding ~ l ++ d.pointers.flatMap d.holding) :
    d'.ownedSectors ~ l ++ d.ownedSectors :=
  calc d'.ownedSectors
      ~ infoSector :: indexSector :: (l ++ d.pointers.flatMap d.holding) := (h.cons _).cons _
    _ ~ infoSector :: (l ++ indexSector :: d.pointers.flatMap d.holding) :=
        (List.perm_middle.symm).cons _
    _ ~ l ++ d.ownedSectors := List.perm_middle.symm

/-! ## Adding -/

/-- A file was added: its descriptor record and its data lie in a place that is marked and listed
from now on. -/
structure Added (d d' : Disk) (p : Placement) (sectors : List Sector) (file : Descriptor) : Prop
    extends Touches d d' (p.descriptor :: p.data) where
  bitmap_eq : d'.bitmap = d.bitmap.markAll (p.descriptor :: p.data) true
  pointers_perm : d'.pointers ~ p.descriptor :: d.pointers
  entryAt_eq : d'.entryAt p.descriptor = ⟨p.descriptor, file⟩
  data_eq : p.data.map d'.peek = sectors

theorem Placement.Fits.bounds {n : Nat} {p : Placement} (h : p.Fits d n) {s : Nat}
    (hs : s ∈ p.descriptor :: p.data) : firstFileSector ≤ s ∧ s < maxSectors :=
  ⟨(h.free s hs).1, Nat.lt_of_lt_of_le (h.free s hs).2.1 d.total_le_max⟩

/-- A new file lies clear of the files that are there. -/
theorem Placement.Fits.not_mem_of_holding {n : Nat} {p : Placement} (h : p.Fits d n)
    (hd : d.Consistent) {q s : Nat} (hq : q ∈ d.pointers) (hs : s ∈ d.holding q) :
    s ∉ p.descriptor :: p.data := by
  intro hmem
  have hused := hd.isUsed_of_mem_holding hq hs
  rw [(h.free s hmem).2.2] at hused; cases hused

theorem added_withFile (h : d.Consistent) {p : Placement} {sectors : List Sector}
    (hp : p.Fits d sectors.length) (file : Descriptor)
    (hroom : d.pointers.length < Index.maxFiles) :
    Added d (d.withFile p sectors file d.files) p sectors file := by
  let dataOn := d.putSectors (p.data.zip sectors)
  let fileOn := dataOn.putSector p.descriptor file.toSector
  let indexOn := fileOn.putIndex (d.files ++ [⟨p.descriptor, file⟩])
  have hdata : Touches d dataOn (p.descriptor :: p.data) :=
    (Touches.refl d _).putSectors fun w hw => List.mem_cons_of_mem _ (List.of_mem_zip hw).1
  have hfile : Touches d fileOn (p.descriptor :: p.data) :=
    hdata.putSector (Or.inl List.mem_cons_self) _
  have hindex : Touches d indexOn (p.descriptor :: p.data) :=
    hfile.putSector (Or.inr (by decide)) _
  have hpeek {s : Nat} (hs : firstFileSector ≤ s) :
      (indexOn.putBitmap p.bitmap).peek s = fileOn.peek s :=
    (peek_putBitmap _ hs _).trans (peek_putIndex _ hs _)
  have hcount {s : Nat} (hs : s ∈ p.descriptor :: p.data) : s < dataOn.image.count := by
    rw [count_putSectors]; exact lt_count_of_lt_total (hp.free s hs).2.1
  refine ⟨hindex.putBitmap _, ?_, ?_, ?_, ?_⟩
  · rw [← hp.bitmap_eq]
    refine bitmap_putBitmap _ ?_
    rw [hp.bitmap_eq, Bitmap.size_markAll, size_bitmap]
  · have hlisted : indexOn.pointers ~ (d.files ++ [Entry.mk p.descriptor file]).map (·.sector) := by
      refine pointers_putIndex_perm ?_ fun e he => ?_
      · rw [List.length_append, files, List.length_map]; exact hroom
      · rcases List.mem_append.1 he with he | he
        · exact h.bounds_file he
        · rw [List.mem_singleton.1 he]; exact hp.bounds List.mem_cons_self
    change (indexOn.putBitmap p.bitmap).pointers ~ _
    rw [List.map_append, map_sector_files] at hlisted
    rw [pointers_putBitmap]
    exact hlisted.trans (List.perm_append_singleton _ _)
  · change (⟨p.descriptor, Descriptor.ofSector ((indexOn.putBitmap p.bitmap).peek p.descriptor)⟩ :
      Entry) = ⟨p.descriptor, file⟩
    rw [hpeek (hp.bounds List.mem_cons_self).1, peek_putSector_self (hcount List.mem_cons_self),
      Descriptor.ofSector_toSector]
  · have hsame : p.data.map (indexOn.putBitmap p.bitmap).peek = p.data.map dataOn.peek := by
      refine List.map_congr_left fun s hs => ?_
      rw [hpeek (hp.bounds (List.mem_cons_of_mem _ hs)).1, peek_putSector_of_ne]
      rintro rfl
      exact (List.nodup_cons.1 hp.nodup).1 hs
    refine hsame.trans (map_peek_putSectors d hp.length_data (List.nodup_cons.1 hp.nodup).2 ?_)
    exact fun s hs => lt_count_of_lt_total (hp.free s (List.mem_cons_of_mem _ hs)).2.1

theorem Placement.Fits.length_data_le {n : Nat} {p : Placement} (h : p.Fits d n) :
    p.data.length ≤ maxSectors := by
  have hsub : p.data ⊆ List.range maxSectors := fun s hs =>
    List.mem_range.2 (h.bounds (List.mem_cons_of_mem _ hs)).2
  have hle := (List.subperm_of_subset (List.nodup_cons.1 h.nodup).2 hsub).length_le
  rwa [List.length_range] at hle

/-- The descriptor of a new file gives back the sectors that were found for it. -/
theorem sectors_newDescriptor {n : Nat} {p : Placement} (hp : p.Fits d n)
    (hcount : (Cluster.ofSectors p.data).length ≤ Cluster.maxCount) (field : Block nameSize)
    (f : FileFormat) (c : Contents) : (d.newDescriptor field f c p.data).sectors = p.data := by
  have hbounds : ∀ s ∈ p.data, firstFileSector ≤ s ∧ s < maxSectors :=
    fun s hs => hp.bounds (List.mem_cons_of_mem _ hs)
  have hlen := hp.length_data_le
  have hword : (UInt16.ofNat p.data.length).toNat = p.data.length :=
    UInt16.toNat_ofNat_of_lt' (Nat.lt_of_le_of_lt hlen (by decide))
  change (Cluster.sectors (Cluster.unpack (Cluster.pack (Cluster.ofSectors p.data)).bytes)).take
    (UInt16.ofNat p.data.length).toNat = p.data
  rw [Cluster.sectors_unpack_pack _ (Nat.le_trans hlen (by decide)) hcount, hword,
    List.take_length]
  exact fun s hs => ⟨Nat.lt_of_lt_of_le (by decide) (hbounds s hs).1,
    Nat.lt_trans (hbounds s hs).2 (by decide)⟩

namespace Added

variable {p : Placement} {sectors : List Sector} {file : Descriptor}

theorem holding_descriptor (h : Added d d' p sectors file) :
    d'.holding p.descriptor = p.descriptor :: file.sectors := by
  have hfile : Descriptor.ofSector (d'.peek p.descriptor) = file :=
    congrArg Entry.file h.entryAt_eq
  rw [holding, hfile]

theorem owned_perm (h : Added d d' p sectors file) (hd : d.Consistent) {n : Nat} (hp : p.Fits d n)
    (hfile : file.sectors = p.data) :
    d'.ownedSectors ~ (p.descriptor :: p.data) ++ d.ownedSectors := by
  have hold : ∀ q ∈ d.pointers, d'.holding q = d.holding q := fun q hq =>
    h.holding_eq (hd.bounds_pointer hq).1 (hp.not_mem_of_holding hd hq List.mem_cons_self)
  have hperm := h.pointers_perm.flatMap_right d'.holding
  rw [List.flatMap_cons, h.holding_descriptor, hfile, flatMap_holding_congr hold] at hperm
  exact ownedSectors_perm hperm

theorem consistent (h : Added d d' p sectors file) (hd : d.Consistent) {n : Nat} (hp : p.Fits d n)
    (hfile : file.sectors = p.data) : d'.Consistent :=
  hd.of_marked h.total_eq h.bitmap_eq hp.nodup (fun s hs => (hp.free s hs).2)
    (h.owned_perm hd hp hfile)

end Added

/-! ## Removing -/

/-- The file in a sector was removed: what it held is marked free, and it is not listed any
more. -/
structure Removed (d d' : Disk) (p : Nat) : Prop extends Touches d d' [] where
  bitmap_eq : d'.bitmap = d.bitmap.markAll (d.holding p) false
  pointers_perm : d.pointers ~ p :: d'.pointers

theorem Removed.owned_perm {p : Nat} (h : Removed d d' p) (hd : d.Consistent) :
    d.ownedSectors ~ d.holding p ++ d'.ownedSectors := by
  have hkept : ∀ q ∈ d'.pointers, d'.holding q = d.holding q := fun q hq =>
    h.holding_eq (hd.bounds_pointer (h.pointers_perm.mem_iff.2 (List.mem_cons_of_mem _ hq))).1
      List.not_mem_nil
  have hperm := h.pointers_perm.flatMap_right d.holding
  rw [List.flatMap_cons, ← flatMap_holding_congr hkept] at hperm
  exact ownedSectors_perm hperm

theorem Removed.consistent {p : Nat} (h : Removed d d' p) (hd : d.Consistent) : d'.Consistent :=
  hd.of_freed h.total_eq h.bitmap_eq (h.owned_perm hd)

/-- A file that is listed is removed by listing the others and freeing what it holds. -/
theorem removed_delete (h : d.Consistent) {p : Nat} (hp : p ∈ d.pointers) :
    Removed d ((d.putIndex (d.files.filter (·.sector != p))).putBitmap
      (d.bitmap.markAll (d.holding p) false)) p := by
  let indexOn := d.putIndex (d.files.filter (·.sector != p))
  have hindex : Touches d indexOn [] := (Touches.refl d _).putSector (Or.inr (by decide)) _
  refine ⟨hindex.putBitmap _, ?_, ?_⟩
  · exact bitmap_putBitmap _ (by rw [Bitmap.size_markAll, size_bitmap])
  · have hlisted : indexOn.pointers ~ (d.files.filter (·.sector != p)).map (·.sector) := by
      refine pointers_putIndex_perm ?_ fun e he => ?_
      · refine Nat.le_trans (List.length_filter_le _ _) ?_
        rw [files, List.length_map]; exact d.length_pointers_le
      · exact h.bounds_file (List.mem_filter.1 he).1
    have hothers : (d.files.filter (·.sector != p)).map (·.sector) = d.pointers.erase p := by
      rw [h.nodup_pointers.erase_eq_filter, ← map_sector_files, List.filter_map]; rfl
    change d.pointers ~ p :: (indexOn.putBitmap _).pointers
    rw [pointers_putBitmap]
    rw [hothers] at hlisted
    exact (List.perm_cons_erase hp).trans (hlisted.symm.cons p)

/-! ## Writing a descriptor record again -/

/-- The descriptor record in a sector was written again. -/
structure Rewritten (d d' : Disk) (p : Nat) (file : Descriptor) : Prop
    extends Touches d d' [p] where
  bitmap_eq : d'.bitmap = d.bitmap
  pointers_perm : d'.pointers ~ d.pointers
  entryAt_eq : d'.entryAt p = ⟨p, file⟩

theorem Rewritten.consistent {p : Nat} {file : Descriptor} (h : Rewritten d d' p file)
    (hd : d.Consistent) (hfile : file.sectors = (d.entryAt p).file.sectors) :
    d'.Consistent := by
  refine hd.of_perm h.total_eq h.bitmap_eq ?_
  have hsame : ∀ q ∈ d.pointers, d'.holding q = d.holding q := by
    intro q hq
    -- The record that is written again lists the data sectors that it listed before.
    by_cases hqp : q = p
    · have hentry : Descriptor.ofSector (d'.peek p) = file := congrArg Entry.file h.entryAt_eq
      rw [hqp, holding, hentry, hfile]; rfl
    · exact h.holding_eq (hd.bounds_pointer hq).1 (List.mem_singleton.not.2 hqp)
  have hperm := h.pointers_perm.flatMap_right d'.holding
  rw [flatMap_holding_congr hsame] at hperm
  exact ownedSectors_perm (l := []) hperm

theorem rewritten_putDescriptor (h : d.Consistent) {p : Nat} (hp : p ∈ d.pointers)
    (file : Descriptor) : Rewritten d (d.putDescriptor p file) p file := by
  obtain ⟨hfirst, hlt⟩ := h.bounds_pointer hp
  refine ⟨(Touches.refl d _).putSector (Or.inl List.mem_cons_self) _, rfl, ?_, ?_⟩
  · rw [pointers_putDescriptor _ (Nat.ne_of_gt (Nat.lt_of_lt_of_le (by decide) hfirst))]
  · rw [entryAt, putDescriptor, peek_putSector_self (lt_count_of_lt_total hlt),
      Descriptor.ofSector_toSector]

/-- Writing the index of the files that a disk has moves them in it at most. -/
theorem Rewritten.putIndex {p : Nat} {file : Descriptor} (h : Rewritten d d' p file)
    (hd : d'.Consistent) (hp : firstFileSector ≤ p) :
    Rewritten d (d'.putIndex d'.files) p file := by
  refine ⟨h.toTouches.putSector (Or.inr (by decide)) _, h.bitmap_eq, ?_, ?_⟩
  · have hlisted : (d'.putIndex d'.files).pointers ~ d'.files.map (·.sector) := by
      refine pointers_putIndex_perm ?_ fun e he => hd.bounds_file he
      rw [files, List.length_map]; exact d'.length_pointers_le
    rw [map_sector_files] at hlisted
    exact hlisted.trans h.pointers_perm
  · rw [← h.entryAt_eq, entryAt, entryAt, peek_putIndex _ hp]

end TiBench.Volume.Disk
