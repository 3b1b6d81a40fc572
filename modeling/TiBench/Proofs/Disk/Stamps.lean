import TiBench.Proofs.Disk.Clocks

/-!
# Masks of timestamps

The mask of a disk leaves out the timestamps of the files that its index lists, and no others. A
deleted file leaves its descriptor record behind, with the times at which it was written.
-/

namespace TiBench.Volume.Disk

variable {a b d : Disk} {dated : List Nat}

theorem contains_standardize {m : Compare.Mask} (h : d.standardize = .ok m) (i : Nat) :
    m.contains i = true ↔ i / sectorSize ∈ d.pointers
      ∧ Descriptor.timestampOffset ≤ i % sectorSize
      ∧ i % sectorSize < Descriptor.timestampOffset + Descriptor.timestampSize := by
  obtain ⟨fs, hfs, hm⟩ := Result.bind_eq_ok.1 h
  obtain ⟨hinside, rfl⟩ := entries_eq_ok.1 hfs
  have hrange {p : Nat} (hp : p ∈ d.pointers) :
      (Compare.Range.mk (p * sectorSize + Descriptor.timestampOffset)
        Descriptor.timestampSize).contains i = true ↔ i / sectorSize = p
          ∧ Descriptor.timestampOffset ≤ i % sectorSize
          ∧ i % sectorSize < Descriptor.timestampOffset + Descriptor.timestampSize := by
    have hmax : p < maxSectors := Nat.lt_of_lt_of_le (hinside p hp) d.total_le_max
    simp only [maxSectors, sectorSize, Descriptor.timestampOffset,
      Descriptor.timestampSize] at hmax ⊢
    rw [Compare.Range.contains_iff, Compare.Range.stop_of_lt (by dsimp only [UInt64.size]; omega)]
    dsimp only
    omega
  rw [← Except.ok.inj hm, Compare.Mask.contains_ofRanges, List.any_map, ← map_sector_files,
    List.mem_map, List.any_eq_true]
  have hlisted {e : Entry} (he : e ∈ d.files) : e.sector ∈ d.pointers := (mem_files.1 he).1
  constructor
  · rintro ⟨e, he, hcontains⟩
    obtain ⟨hsector, hstamp⟩ := (hrange (hlisted he)).1 hcontains
    exact ⟨⟨e, he, hsector.symm⟩, hstamp⟩
  · rintro ⟨⟨e, he, hsector⟩, hstamp⟩
    exact ⟨e, he, (hrange (hlisted he)).2 ⟨hsector.symm, hstamp⟩⟩

theorem standardize_eq (hd : d.Consistent) : ∃ m, d.standardize = .ok m
    ∧ ∀ i, m.contains i = true ↔ i / sectorSize ∈ d.pointers
      ∧ Descriptor.timestampOffset ≤ i % sectorSize
      ∧ i % sectorSize < Descriptor.timestampOffset + Descriptor.timestampSize := by
  obtain ⟨m, hm⟩ : ∃ m, d.standardize = .ok m := ⟨_, by rw [standardize, hd.entries_eq]; rfl⟩
  exact ⟨m, hm, contains_standardize hm⟩

/-- The images are of one length, and differ at most in timestamps of files that one of the two
indices lists. -/
def SameButDates (a b : Disk) : Prop :=
  b.toBytes.length = a.toBytes.length ∧ ∀ i, b.toBytes[i]? ≠ a.toBytes[i]? →
    ∃ n ∈ a.pointers ++ b.pointers, n * sectorSize + 0x14 ≤ i ∧ i < n * sectorSize + 0x1c

/-- Images that match outside the masks of both disks are the same but for dates. -/
theorem sameButDates_of_compare {m m' : Compare.Mask} (hm : a.standardize = .ok m)
    (hm' : b.standardize = .ok m')
    (h : Compare.compareBytes a.toBytes b.toBytes (m.merge m') 0 = .ok ()) :
    SameButDates a b := by
  obtain ⟨hlength, hsame⟩ := Compare.compareBytes_eq_ok_iff.1 h
  have heq : b.toBytes.length = a.toBytes.length := Nat.le_antisymm hlength.2 hlength.1
  refine ⟨heq, fun i hi => ?_⟩
  have hmask : (m.merge m').contains i = true := by
    by_contra hmask
    refine hi ?_
    by_cases hlt : i < a.toBytes.length
    · have hx := List.getElem?_eq_getElem hlt
      have hy := List.getElem?_eq_getElem (heq ▸ hlt)
      rw [hx, hy, hsame i _ _ hx hy (Bool.not_eq_true _ ▸ hmask)]
    · rw [List.getElem?_eq_none (by omega), List.getElem?_eq_none (by omega)]
  have hsplit := Nat.div_add_mod' i sectorSize
  rw [Compare.Mask.contains_merge, Bool.or_eq_true, contains_standardize hm,
    contains_standardize hm'] at hmask
  simp only [Descriptor.timestampOffset, Descriptor.timestampSize] at hmask
  rcases hmask with ⟨hlisted, hstamp⟩ | ⟨hlisted, hstamp⟩
  · exact ⟨_, List.mem_append_left _ hlisted, by omega, by omega⟩
  · exact ⟨_, List.mem_append_right _ hlisted, by omega, by omega⟩

/-- Disks that differ in dates match outside their masks if they differ in no sector that the index
lists no longer. -/
theorem Twins.compare_standardize_iff (h : Twins a b dated) (ha : a.Consistent)
    (hb : b.Consistent) : ∃ m m', a.standardize = .ok m ∧ b.standardize = .ok m'
      ∧ (Compare.compareBytes a.toBytes b.toBytes (m.merge m') 0 = .ok ()
        ↔ ∀ n ∈ dated, n ∉ a.pointers → b.peek n = a.peek n) := by
  obtain ⟨m, hm, hmask⟩ := standardize_eq ha
  obtain ⟨m', hm', hmask'⟩ := standardize_eq hb
  rw [h.pointers_eq] at hmask'
  have hmerged : ∀ i, (m.merge m').contains i = m.contains i := by
    intro i
    rw [Compare.Mask.contains_merge, Bool.eq_iff_iff.2 ((hmask' i).trans (hmask i).symm),
      Bool.or_self]
  refine ⟨m, m', hm, hm', ?_⟩
  rw [Compare.compareBytes_eq_ok_iff]
  constructor
  · rintro ⟨-, hsame⟩ n - hlisted
    refine peek_eq_of_bytes_eq h.count_eq fun i hi => ?_
    have hmaskless : (m.merge m').contains i = false := by
      rw [hmerged, Bool.eq_false_iff, Ne, hmask, hi]
      exact fun hmasked => hlisted hmasked.1
    by_cases hlt : i < a.toBytes.length
    · have hlt' : i < b.toBytes.length := by rw [h.length_toBytes]; exact hlt
      have hx := List.getElem?_eq_getElem hlt
      have hy := List.getElem?_eq_getElem hlt'
      rw [hx, hy, hsame i _ _ hx hy hmaskless]
    · rw [List.getElem?_eq_none (by rw [h.length_toBytes]; omega), List.getElem?_eq_none (by omega)]
  · intro hkept
    refine ⟨by rw [h.length_toBytes]; omega, fun i x y hx hy hi => ?_⟩
    by_contra hne
    have hdiffer : b.toBytes[i]? ≠ a.toBytes[i]? := by
      rw [hx, hy]
      exact fun heq => hne (Option.some.inj heq).symm
    obtain ⟨hmem, hpeek, hstamp⟩ := h.mem_dated_of_ne hdiffer
    refine hpeek (hkept _ hmem fun hlisted => ?_)
    rw [hmerged, (hmask i).2 ⟨hlisted, hstamp⟩] at hi; cases hi

/-- A file that is added at any other time is added as well, and the images match outside the masks
of both disks. -/
theorem compare_standardize_add (hd : d.Consistent) {name : String} {data : Bytes} {f : FileFormat}
    (h : (d.add name data f).error? = none) (t : Timestamp) :
    ((d.setClock t).add name data f).error? = none
      ∧ ∃ m m', (d.add name data f).disk.standardize = .ok m
        ∧ ((d.setClock t).add name data f).disk.standardize = .ok m'
        ∧ Compare.compareBytes (d.add name data f).disk.toBytes
          ((d.setClock t).add name data f).disk.toBytes (m.merge m') 0 = .ok () := by
  obtain ⟨contents, hc, hadd⟩ := Result.bind_eq_ok.1 (Change.eq_ok_of_ofExcept h)
  obtain ⟨d', hadd'⟩ := addFile_setClock hadd t
  have h' : ((d.setClock t).add name data f).error? = none := by
    rw [add, hc, Result.ok_bind, hadd']; rfl
  have htwins : Twins d (d.setClock t) [] :=
    ⟨rfl, rfl, fun _ => rfl, fun _ _ => rfl, fun _ h => absurd h List.not_mem_nil⟩
  obtain ⟨m, m', hm, hm', hiff⟩ := (htwins.adding h h').compare_standardize_iff
    (hd.adding name f _) ((hd.setClock t).adding name f _)
  refine ⟨h', m, m', hm, hm', hiff.2 fun n hn hlisted => absurd ?_ hlisted⟩
  -- The one record that was written is that of the new file, which is listed.
  obtain ⟨field, fs, p, -, hfs, -, hroom, hp, -, hdisk⟩ := addFile_eq_ok hadd
  obtain ⟨-, rfl⟩ := entries_eq_ok.1 hfs
  rw [files, List.length_map] at hroom
  change (d.adding name f _).disk = _ at hdisk
  rw [hdisk, (added_withFile hd (fits_of_place? hp) _ hroom).pointers_perm.mem_iff]
  rw [List.nil_append, descriptor_of_place? hp] at hn
  exact List.mem_cons.2 (.inl (List.mem_singleton.1 hn))

/-- Two runs of the same operations from the same blank disk, each operation at any time: the
images match outside the masks of both disks if and only if the sectors in which descriptor records
were written, and which the index lists no longer, hold the same after both. -/
theorem compare_standardized_iff {clock clock' : Timestamp} {name : String} {sectors : Nat}
    {sides density : UInt8} (ha : init clock name sectors sides density = .ok a)
    (hb : init clock' name sectors sides density = .ok b) {steps steps' : List Timed}
    (hsteps : steps'.map Timed.operation = steps.map Timed.operation) :
    ∃ m m', (a.runAt steps).standardize = .ok m ∧ (b.runAt steps').standardize = .ok m'
      ∧ (Compare.compareBytes (a.runAt steps).toBytes (b.runAt steps').toBytes (m.merge m') 0
          = .ok ()
        ↔ ∀ n ∈ a.recordsAlong steps, n ∉ (a.runAt steps).pointers →
          (b.runAt steps').peek n = (a.runAt steps).peek n) := by
  obtain ⟨-, htwins, -⟩ := twins_runAt ha hb hsteps
  exact htwins.compare_standardize_iff ((clean_init ha).runAt _).consistent
    ((clean_init hb).runAt _).consistent

/-- A file was added, at two times, and is still there. -/
theorem compare_standardized_iff_added : ∃ a b m m',
    init .usual "WORK" 40 1 1 = .ok a ∧ init .usual "WORK" 40 1 1 = .ok b
    ∧ (a.runAt [⟨.usual, .add "A" [0x61] .program⟩]).standardize = .ok m
    ∧ (b.runAt [⟨⟨2031, 5, 6, 7, 8, 10⟩, .add "A" [0x61] .program⟩]).standardize = .ok m'
    ∧ (Compare.compareBytes (a.runAt [⟨.usual, .add "A" [0x61] .program⟩]).toBytes
        (b.runAt [⟨⟨2031, 5, 6, 7, 8, 10⟩, .add "A" [0x61] .program⟩]).toBytes (m.merge m') 0
        = .ok ()) := by
  obtain ⟨a, ha, hlisted⟩ : ∃ a, init .usual "WORK" 40 1 1 = .ok a
      ∧ decide (∀ n ∈ a.recordsAlong [⟨.usual, .add "A" [0x61] .program⟩],
        n ∈ (a.runAt [⟨.usual, .add "A" [0x61] .program⟩]).pointers) = true :=
    Result.exists_ok_of_any (by decide +kernel)
  have hsteps : [Timed.mk ⟨2031, 5, 6, 7, 8, 10⟩ (.add "A" [0x61] .program)].map Timed.operation
      = [Timed.mk .usual (.add "A" [0x61] .program)].map Timed.operation := rfl
  obtain ⟨m, m', hm, hm', hiff⟩ := compare_standardized_iff ha ha hsteps
  refine ⟨a, a, m, m', ha, ha, hm, hm', hiff.2 fun n hn hn' => ?_⟩
  exact absurd (of_decide_eq_true hlisted n hn) hn'

/-- A file that was added at two times and deleted leaves images that do not match. -/
theorem deleted_not_masked : ∃ a m m', init .usual "WORK" 3 1 1 = .ok a
    ∧ (a.runAt [⟨.usual, .add "A" [] .program⟩, ⟨.usual, .delete "A"⟩]).standardize = .ok m
    ∧ (a.runAt [⟨⟨2031, 5, 6, 7, 8, 10⟩, .add "A" [] .program⟩,
      ⟨⟨2031, 5, 6, 7, 8, 10⟩, .delete "A"⟩]).standardize = .ok m'
    ∧ Compare.compareBytes
      (a.runAt [⟨.usual, .add "A" [] .program⟩, ⟨.usual, .delete "A"⟩]).toBytes
      (a.runAt [⟨⟨2031, 5, 6, 7, 8, 10⟩, .add "A" [] .program⟩,
        ⟨⟨2031, 5, 6, 7, 8, 10⟩, .delete "A"⟩]).toBytes (m.merge m') 0 ≠ .ok () := by
  let late : Timestamp := ⟨2031, 5, 6, 7, 8, 10⟩
  let stepsAt (t : Timestamp) : List Timed := [⟨t, .add "A" [] .program⟩, ⟨t, .delete "A"⟩]
  obtain ⟨a, ha, hdiffer⟩ : ∃ a, init .usual "WORK" 3 1 1 = .ok a
      ∧ decide (∃ n ∈ a.recordsAlong (stepsAt .usual), n ∉ (a.runAt (stepsAt .usual)).pointers
        ∧ (a.runAt (stepsAt late)).peek n ≠ (a.runAt (stepsAt .usual)).peek n) = true :=
    Result.exists_ok_of_any (by decide +kernel)
  obtain ⟨n, hn, hlisted, hne⟩ := of_decide_eq_true hdiffer
  have hsteps : (stepsAt late).map Timed.operation = (stepsAt .usual).map Timed.operation := rfl
  obtain ⟨-, htwins, -⟩ := twins_runAt ha ha hsteps
  have hclean := clean_init ha
  obtain ⟨m, m', hm, hm', hiff⟩ :=
    htwins.compare_standardize_iff (hclean.runAt _).consistent (hclean.runAt _).consistent
  exact ⟨a, m, m', ha, hm, hm', fun h => hne (hiff.1 h n hn hlisted)⟩

end TiBench.Volume.Disk
