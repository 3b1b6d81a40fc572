import TiBench.Volume.Disk.Check
import TiBench.Proofs.Disk.Allocation
import Mathlib.Data.List.Nodup
import Mathlib.Data.List.Pairwise

/-!
# Consistent disks

A disk on which ownership and bitmap agree, as one condition on the list of all owned sectors. Each
change of a disk shows as a change of that list.
-/

namespace TiBench.Volume.Disk

/-- The descriptor record in a sector, and the data sectors that it lists. -/
def holding (d : Disk) (p : Nat) : List Nat := p :: (Descriptor.ofSector (d.peek p)).sectors

/-- The sectors that the information block, the index and the files own, with repetitions. -/
def ownedSectors (d : Disk) : List Nat :=
  infoSector :: indexSector :: d.pointers.flatMap d.holding

theorem mem_ownedSectors {d : Disk} {p s : Nat} (hp : p ∈ d.pointers) (hs : s ∈ d.holding p) :
    s ∈ d.ownedSectors :=
  List.mem_cons_of_mem _ (List.mem_cons_of_mem _ (List.mem_flatMap.2 ⟨p, hp, hs⟩))

/-- No sector is owned twice, all owned sectors lie on the volume, and these are the ones in use. -/
structure Consistent (d : Disk) : Prop where
  nodup : d.ownedSectors.Nodup
  lt_total : ∀ s ∈ d.ownedSectors, s < d.total
  used_iff : ∀ s < d.total, d.bitmap.isUsed s = true ↔ s ∈ d.ownedSectors

/-! ## What a check finds -/

theorem owned_eq_ok {d : Disk} {l : List Nat} :
    d.owned = .ok l ↔ (∀ s ∈ d.ownedSectors, s < d.total) ∧ l = d.ownedSectors := by
  have hfiles : d.files.map (fun e => e.sector :: e.file.sectors) = d.pointers.map d.holding := by
    rw [files, List.map_map]; rfl
  have hall (h : ∀ s ∈ d.ownedSectors, s < d.total) : d.owned = .ok d.ownedSectors := by
    have hhold : ∀ p ∈ d.pointers, ∀ s ∈ d.holding p, s < d.total := fun p hp s hs =>
      h s (mem_ownedSectors hp hs)
    have hentries : d.entries = .ok d.files :=
      entries_eq_ok.2 ⟨fun p hp => hhold p hp p List.mem_cons_self, rfl⟩
    have howned : d.files.mapM d.ownedBy = .ok (d.pointers.map d.holding) := by
      rw [← hfiles]
      refine Result.mapM_eq_ok fun e he => ?_
      obtain ⟨p, hp, rfl⟩ := List.mem_map.1 he
      rw [ownedBy, if_pos]
      rw [List.all_eq_true]
      exact fun s hs => decide_eq_true (hhold p hp s (List.mem_cons_of_mem _ hs))
    rw [owned, hentries, Result.ok_bind, howned, ownedSectors, List.flatMap_def]; rfl
  constructor
  · intro h
    have hlt : ∀ s ∈ d.ownedSectors, s < d.total := by
      rw [owned, Result.bind_eq_ok] at h
      obtain ⟨fs, hfs, h⟩ := h
      obtain ⟨ls, hls, -⟩ := Result.bind_eq_ok.1 h
      obtain ⟨hpointers, rfl⟩ := entries_eq_ok.1 hfs
      intro s hs
      rw [ownedSectors, List.mem_cons, List.mem_cons, List.mem_flatMap] at hs
      rcases hs with rfl | rfl | ⟨p, hp, hs⟩
      · exact Nat.lt_trans (by decide) d.describes_files
      · exact d.indexSector_lt_total
      · obtain ⟨l, hl⟩ := Result.exists_ok_of_mapM_eq_ok hls (List.mem_map.2 ⟨p, hp, rfl⟩)
        rw [ownedBy] at hl
        split at hl
        · rename_i hdata
          rcases List.mem_cons.1 hs with rfl | hs
          · exact hpointers s hp
          · exact of_decide_eq_true (List.all_eq_true.1 hdata s hs)
        · cases hl
    rw [hall hlt] at h
    exact ⟨hlt, (Except.ok.inj h).symm⟩
  · rintro ⟨hlt, rfl⟩
    exact hall hlt

theorem problemAt_eq_none {s n : Nat} {used : Bool} :
    problemAt s n used = none ↔ n ≤ 1 ∧ (used = true ↔ n = 1) := by
  rw [problemAt]
  rcases n with _ | _ | n
  · cases used <;> simp
  · cases used <;> simp
  · simp

theorem check_eq_nil_iff {d : Disk} : d.check = .ok [] ↔ d.Consistent := by
  have hcheck {l : List Nat} (h : d.owned = .ok l) : d.check = .ok ((List.range d.total).filterMap
      fun s => problemAt s (l.count s) (d.bitmap.isUsed s)) := by
    rw [check, h]; rfl
  have hone (l : List Nat) (h : ∀ s, l.count s ≤ 1) (s : Nat) : l.count s = 1 ↔ s ∈ l := by
    rw [← List.count_pos_iff]
    have := h s
    omega
  constructor
  · intro h
    rw [check, Result.bind_eq_ok] at h
    obtain ⟨l, hl, h⟩ := h
    obtain ⟨hlt, rfl⟩ := owned_eq_ok.1 hl
    have hnone := List.filterMap_eq_nil_iff.1 (Except.ok.inj h)
    have hcount : ∀ s, d.ownedSectors.count s ≤ 1 := by
      intro s
      by_cases hs : s ∈ d.ownedSectors
      · exact (problemAt_eq_none.1 (hnone s (List.mem_range.2 (hlt s hs)))).1
      · rw [List.count_eq_zero_of_not_mem hs]; exact Nat.zero_le 1
    refine ⟨List.nodup_iff_count.2 hcount, hlt, fun s hs => ?_⟩
    rw [← hone _ hcount]
    exact (problemAt_eq_none.1 (hnone s (List.mem_range.2 hs))).2
  · intro h
    have hcount := List.nodup_iff_count.1 h.nodup
    rw [hcheck (owned_eq_ok.2 ⟨h.lt_total, rfl⟩)]
    congr 1
    refine List.filterMap_eq_nil_iff.2 fun s hs => problemAt_eq_none.2 ⟨hcount s, ?_⟩
    rw [hone _ hcount]
    exact h.used_iff s (List.mem_range.1 hs)

/-! ## What lies where -/

theorem holding_congr {d d' : Disk} {p : Nat} (h : d'.peek p = d.peek p) :
    d'.holding p = d.holding p := by
  rw [holding, holding, h]

theorem flatMap_holding_congr {d d' : Disk} {ps : List Nat}
    (h : ∀ p ∈ ps, d'.holding p = d.holding p) :
    ps.flatMap d'.holding = ps.flatMap d.holding := by
  rw [List.flatMap_def, List.flatMap_def, List.map_congr_left h]

theorem size_bitmap (d : Disk) : d.bitmap.bits.size = maxSectors := by
  rw [bitmap, Bitmap.size_ofBytes, d.info.bitmap.length_eq]; rfl

theorem length_pointers_le (d : Disk) : d.pointers.length ≤ Index.maxFiles :=
  Index.length_pointers_le _

namespace Consistent

variable {d d' : Disk}

theorem nodup_flatMap (h : d.Consistent) : (d.pointers.flatMap d.holding).Nodup :=
  (List.nodup_cons.1 (List.nodup_cons.1 h.nodup).2).2

/-- What the files own lies behind the index, on the volume. -/
theorem bounds (h : d.Consistent) {p s : Nat} (hp : p ∈ d.pointers) (hs : s ∈ d.holding p) :
    firstFileSector ≤ s ∧ s < d.total := by
  have hmem : s ∈ d.pointers.flatMap d.holding := List.mem_flatMap.2 ⟨p, hp, hs⟩
  obtain ⟨hinfo, hrest⟩ := List.nodup_cons.1 h.nodup
  have h0 : s ≠ infoSector := fun h0 => hinfo (h0 ▸ List.mem_cons_of_mem _ hmem)
  have h1 : s ≠ indexSector := fun h1 => (List.nodup_cons.1 hrest).1 (h1 ▸ hmem)
  simp only [infoSector, indexSector] at h0 h1
  exact ⟨by rw [firstFileSector]; omega, h.lt_total s (mem_ownedSectors hp hs)⟩

theorem isUsed_of_mem_holding (h : d.Consistent) {p s : Nat} (hp : p ∈ d.pointers)
    (hs : s ∈ d.holding p) : d.bitmap.isUsed s = true :=
  (h.used_iff s (h.bounds hp hs).2).2 (mem_ownedSectors hp hs)

theorem bounds_pointer (h : d.Consistent) {p : Nat} (hp : p ∈ d.pointers) :
    firstFileSector ≤ p ∧ p < d.total := h.bounds hp List.mem_cons_self

theorem bounds_file (h : d.Consistent) {e : Entry} (he : e ∈ d.files) :
    firstFileSector ≤ e.sector ∧ e.sector < maxSectors := by
  obtain ⟨hfirst, hlt⟩ := h.bounds_pointer (mem_files.1 he).1
  exact ⟨hfirst, Nat.lt_of_lt_of_le hlt d.total_le_max⟩

/-- Two files have no sector in common. -/
theorem disjoint (h : d.Consistent) {p q s : Nat} (hp : p ∈ d.pointers) (hq : q ∈ d.pointers)
    (hpq : p ≠ q) (hs : s ∈ d.holding p) : s ∉ d.holding q := by
  have hpair := (List.nodup_flatMap.1 h.nodup_flatMap).2
  have : Std.Symm (Function.onFun List.Disjoint d.holding) :=
    ⟨fun _ _ hdisj s hs hs' => hdisj hs' hs⟩
  exact fun hs' => hpair.forall hp hq hpq hs hs'

theorem nodup_pointers (h : d.Consistent) : d.pointers.Nodup := by
  refine (List.nodup_flatMap.1 h.nodup_flatMap).2.imp fun hdisj hpq => ?_
  exact hdisj List.mem_cons_self (hpq ▸ List.mem_cons_self)

theorem indexSector_not_mem_pointers (h : d.Consistent) : indexSector ∉ d.pointers :=
  fun hmem => absurd (h.bounds_pointer hmem).1 (by decide)

theorem entries_eq (h : d.Consistent) : d.entries = .ok d.files :=
  entries_eq_ok.2 ⟨fun _ hp => (h.bounds_pointer hp).2, rfl⟩

/-! ## Changes that keep a disk consistent -/

theorem of_perm (h : d.Consistent) (htotal : d'.total = d.total) (hbitmap : d'.bitmap = d.bitmap)
    (howned : d'.ownedSectors.Perm d.ownedSectors) : d'.Consistent where
  nodup := howned.nodup_iff.2 h.nodup
  lt_total s hs := htotal ▸ h.lt_total s (howned.mem_iff.1 hs)
  used_iff s hs := by rw [hbitmap, howned.mem_iff]; exact h.used_iff s (htotal ▸ hs)

/-- Free sectors that are marked as they come to be owned. -/
theorem of_marked (h : d.Consistent) {l : List Nat} (htotal : d'.total = d.total)
    (hbitmap : d'.bitmap = d.bitmap.markAll l true) (hnodup : l.Nodup)
    (hfree : ∀ s ∈ l, s < d.total ∧ d.bitmap.isUsed s = false)
    (howned : d'.ownedSectors.Perm (l ++ d.ownedSectors)) : d'.Consistent where
  nodup := by
    refine howned.nodup_iff.2 (List.nodup_append'.2 ⟨hnodup, h.nodup, fun s hs hmem => ?_⟩)
    have hused := (h.used_iff s (hfree s hs).1).2 hmem
    rw [(hfree s hs).2] at hused; cases hused
  lt_total s hs := by
    rw [htotal]
    rcases List.mem_append.1 (howned.mem_iff.1 hs) with hs | hs
    · exact (hfree s hs).1
    · exact h.lt_total s hs
  used_iff s hs := by
    rw [hbitmap, Bitmap.isUsed_markAll_true, howned.mem_iff, List.mem_append,
      h.used_iff s (htotal ▸ hs)]

/-- Sectors that are marked free as they cease to be owned. -/
theorem of_freed (h : d.Consistent) {l : List Nat} (htotal : d'.total = d.total)
    (hbitmap : d'.bitmap = d.bitmap.markAll l false)
    (howned : d.ownedSectors.Perm (l ++ d'.ownedSectors)) : d'.Consistent := by
  have hnodup := List.nodup_append'.1 (howned.nodup_iff.1 h.nodup)
  have hsize : ∀ s ∈ l, s < d.bitmap.bits.size := fun s hs => by
    rw [size_bitmap]
    exact Nat.lt_of_lt_of_le (h.lt_total s (howned.mem_iff.2 (List.mem_append_left _ hs)))
      d.total_le_max
  refine ⟨hnodup.2.1, fun s hs => ?_, fun s hs => ?_⟩
  · rw [htotal]; exact h.lt_total s (howned.mem_iff.2 (List.mem_append_right _ hs))
  · rw [hbitmap, Bitmap.isUsed_markAll_false _ hsize, h.used_iff s (htotal ▸ hs),
      howned.mem_iff, List.mem_append]
    constructor
    · rintro ⟨hl, hs | hs⟩
      · exact absurd hs hl
      · exact hs
    · exact fun hs => ⟨fun hl => hnodup.2.2 hl hs, Or.inr hs⟩

end Consistent

end TiBench.Volume.Disk
