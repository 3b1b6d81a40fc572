import TiBench.Volume.Index
import TiBench.Proofs.Bytes
import TiBench.Proofs.Utf8
import Mathlib.Data.List.TakeWhile

/-!
# Laws of the descriptor index

An index that was built lists the sectors it was built from, in the order of the names.
-/

namespace TiBench.Volume.Index

/-! ## The order of names -/

theorem nameLE_trans (a b c : String × Nat) (hab : nameLE a.1 b.1 = true)
    (hbc : nameLE b.1 c.1 = true) : nameLE a.1 c.1 = true :=
  decide_eq_true (List.le_trans (of_decide_eq_true hab) (of_decide_eq_true hbc))

theorem nameLE_total (a b : String × Nat) : (nameLE a.1 b.1 || nameLE b.1 a.1) = true := by
  rw [Bool.or_eq_true]
  exact (List.le_total (Text.utf8 a.1) (Text.utf8 b.1)).imp decide_eq_true decide_eq_true

theorem sort_perm (files : List (String × Nat)) : (sort files).Perm files :=
  List.mergeSort_perm _ _

theorem pairwise_sort (files : List (String × Nat)) :
    (sort files).Pairwise fun a b => Text.utf8 a.1 ≤ Text.utf8 b.1 := by
  have hsorted : (sort files).Pairwise fun a b => nameLE a.1 b.1 = true :=
    List.pairwise_mergeSort nameLE_trans nameLE_total files
  exact hsorted.imp of_decide_eq_true

/-- Files that are told apart by the bytes of their names have one order only. -/
theorem sort_eq_of_perm {files files' : List (String × Nat)} (h : files'.Perm files)
    (hinj : ∀ a ∈ files, ∀ b ∈ files, Text.utf8 a.1 = Text.utf8 b.1 → a = b) :
    sort files' = sort files := by
  refine List.Perm.eq_of_pairwise (fun a b ha hb hab hba => ?_) (pairwise_sort files')
    (pairwise_sort files) ((sort_perm files').trans (h.trans (sort_perm files).symm))
  exact hinj a (h.mem_iff.1 ((sort_perm files').mem_iff.1 ha)) b ((sort_perm files).mem_iff.1 hb)
    (List.le_antisymm hab hba)

/-- The files in the order of their names, those of one name in the order in which they were. -/
structure SortsByName (files sorted : List (String × Nat)) : Prop where
  perm : sorted.Perm files
  ordered : sorted.Pairwise fun a b => Text.utf8 a.1 ≤ Text.utf8 b.1
  stable : ∀ name, sorted.filter (·.1 == name) = files.filter (·.1 == name)

/-- Files of one name are in order already, so that sorting keeps them as they are. -/
theorem sortsByName_sort (files : List (String × Nat)) : SortsByName files (sort files) where
  perm := sort_perm files
  ordered := pairwise_sort files
  stable name := by
    have hordered : (files.filter (·.1 == name)).Pairwise fun a b => nameLE a.1 b.1 = true := by
      refine List.pairwise_of_forall_mem_list fun a ha b hb => ?_
      rw [eq_of_beq (List.mem_filter.1 ha).2, eq_of_beq (List.mem_filter.1 hb).2]
      exact decide_eq_true (List.le_refl _)
    have hsublist : (files.filter (·.1 == name)).Sublist (sort files) :=
      List.sublist_mergeSort nameLE_trans nameLE_total hordered List.filter_sublist
    have hkept := hsublist.filter (·.1 == name)
    rw [List.filter_filter] at hkept
    simp only [Bool.and_self] at hkept
    exact (hkept.eq_of_length ((sort_perm files).filter _).length_eq.symm).symm

/-- Lists in the order of the names are the same if their files of each name are. They begin with
one name, which comes before all the others, and with the first file of that name. -/
theorem eq_of_ordered {l l' : List (String × Nat)}
    (hl : l.Pairwise fun a b => Text.utf8 a.1 ≤ Text.utf8 b.1)
    (hl' : l'.Pairwise fun a b => Text.utf8 a.1 ≤ Text.utf8 b.1) (hperm : l.Perm l')
    (h : ∀ name, l.filter (·.1 == name) = l'.filter (·.1 == name)) : l = l' := by
  induction l generalizing l' with
  | nil => exact hperm.symm.eq_nil.symm
  | cons a l ih =>
      cases l' with
      | nil => exact hperm.eq_nil
      | cons b l' =>
          obtain ⟨hfirst, hmore⟩ := List.pairwise_cons.1 hl
          obtain ⟨hfirst', hmore'⟩ := List.pairwise_cons.1 hl'
          have hname : b.1 = a.1 := by
            rcases List.mem_cons.1 (hperm.mem_iff.1 List.mem_cons_self) with hab | ha
            · rw [hab]
            · rcases List.mem_cons.1 (hperm.mem_iff.2 List.mem_cons_self) with hba | hb
              · rw [hba]
              · exact Text.eq_of_utf8_eq (List.le_antisymm (hfirst' a ha) (hfirst b hb))
          have hhead := h a.1
          simp only [List.filter_cons, hname, beq_self_eq_true, if_true] at hhead
          obtain rfl := (List.cons.inj hhead).1
          refine congrArg _ (ih hmore hmore' hperm.cons_inv fun name => ?_)
          have hfiles := h name
          rw [List.filter_cons, List.filter_cons] at hfiles
          split at hfiles
          · exact (List.cons.inj hfiles).2
          · exact hfiles

theorem sortsByName_iff {files sorted : List (String × Nat)} :
    SortsByName files sorted ↔ sorted = sort files := by
  have hsort := sortsByName_sort files
  constructor
  · intro h
    exact eq_of_ordered h.ordered hsort.ordered (h.perm.trans hsort.perm.symm)
      fun name => (h.stable name).trans (hsort.stable name).symm
  · rintro rfl
    exact hsort

/-- Files that are in order stay as they are. -/
theorem sort_sort (files : List (String × Nat)) : sort (sort files) = sort files :=
  (sortsByName_iff.1 ⟨.refl _, pairwise_sort files, fun _ => rfl⟩).symm

/-! ## Listed sectors -/

theorem length_pointers_le (s : Bytes) : (pointers s).length ≤ maxFiles := by
  rw [pointers, List.length_map]
  have htake : ((Bytes.wordsBE s).take maxFiles).length ≤ maxFiles := List.length_take_le _ _
  exact Nat.le_trans (List.takeWhile_sublist _).length_le htake

theorem ne_zero_of_mem_pointers {s : Bytes} {p : Nat} (h : p ∈ pointers s) : p ≠ 0 := by
  obtain ⟨w, hw, rfl⟩ := List.mem_map.1 h
  have hne : (w != 0) = true := List.mem_takeWhile_imp (p := (· != 0)) hw
  exact fun h0 => bne_iff_ne.1 hne (UInt16.toNat_inj.1 h0)

/-- The sectors stand one after the other in big endian words, with zeros after the last. -/
theorem bytes_sector {files : List (String × Nat)} (hlen : files.length ≤ maxFiles) :
    (sector files).bytes = files.flatMap (fun f => Bytes.ofWordBE (UInt16.ofNat f.2))
      ++ List.replicate (sectorSize - 2 * files.length) 0 := by
  have hsize : (files.flatMap fun f => Bytes.ofWordBE (UInt16.ofNat f.2)).length
      = 2 * files.length := by
    rw [← List.flatMap_map, Bytes.length_flatMap_ofWordBE, List.length_map]
  have hfit : (files.flatMap fun f => Bytes.ofWordBE (UInt16.ofNat f.2)).length ≤ sectorSize := by
    rw [hsize]; simp only [maxFiles, sectorSize] at hlen ⊢; omega
  rw [sector, List.take_of_length_le hlen]
  exact (Bytes.fit_of_length_le hfit).trans (by rw [hsize])

theorem pointers_sector {files : List (String × Nat)} (hlen : files.length ≤ maxFiles)
    (hsec : ∀ f ∈ files, 0 < f.2 ∧ f.2 < 65536) :
    pointers (sector files).bytes = files.map (·.2) := by
  have hall : ∀ w ∈ files.map (fun f => UInt16.ofNat f.2), (w != 0) = true := by
    intro w hw
    obtain ⟨f, hf, rfl⟩ := List.mem_map.1 hw
    obtain ⟨hpos, hlt⟩ := hsec f hf
    rw [bne_iff_ne]
    intro h0
    have := congrArg UInt16.toNat h0
    rw [UInt16.toNat_ofNat_of_lt' hlt] at this
    rw [this] at hpos; cases hpos
  have hrest : ((Bytes.wordsBE (List.replicate (sectorSize - 2 * files.length) 0)).take
      (maxFiles - files.length)).takeWhile (· != 0) = [] := by
    rw [List.takeWhile_eq_nil_iff]
    intro hpos
    have hzero := Bytes.eq_zero_of_mem_wordsBE_replicate
      (List.mem_of_mem_take (List.get_mem _ ⟨0, hpos⟩))
    rw [hzero]; decide
  rw [pointers, bytes_sector hlen, ← List.flatMap_map, Bytes.wordsBE_append, List.take_append,
    List.length_map, List.take_of_length_le (by rw [List.length_map]; exact hlen),
    List.takeWhile_append_of_pos hall, hrest, List.append_nil, List.map_map]
  exact List.map_congr_left fun f hf => UInt16.toNat_ofNat_of_lt' (hsec f hf).2

/-! ## Any sector as an index -/

/-- The number of two bytes in a place of the index, the first one the high one. -/
def number (s : Sector) (i : Nat) : Nat :=
  (s.byte (2 * i)).toNat * 256 + (s.byte (2 * i + 1)).toNat

theorem take_wordsBE (s : Sector) : (Bytes.wordsBE s.bytes).take maxFiles
    = (List.range maxFiles).map fun i => s.wordBE (2 * i) := by
  apply List.ext_getElem?
  intro i
  by_cases hi : i < maxFiles
  · have hlt : 2 * i + 1 < s.bytes.length := by
      rw [s.length_eq]; simp only [maxFiles, sectorSize] at hi ⊢; omega
    rw [List.getElem?_take_of_lt hi, Bytes.getElem?_wordsBE hlt, List.getElem?_map,
      List.getElem?_range hi]
    rfl
  · rw [List.getElem?_eq_none (Nat.le_trans (List.length_take_le _ _) (Nat.not_lt.1 hi)),
      List.getElem?_eq_none (by rw [List.length_map, List.length_range]; exact Nat.not_lt.1 hi)]

/-- A sector lists what stands before its first zero word. -/
theorem pointers_eq (s : Sector) : ∃ n ≤ maxFiles, pointers s.bytes = (List.range n).map (number s)
    ∧ (∀ i < n, number s i ≠ 0) ∧ (n < maxFiles → number s n = 0) := by
  obtain ⟨n, hn, htake, hstop⟩ :=
    Pieces.exists_takeWhile_range (· != 0) (fun i => s.wordBE (2 * i)) maxFiles
  have hnumbers : pointers s.bytes = (List.range n).map (number s) := by
    rw [pointers, take_wordsBE, htake, List.map_map]
    exact List.map_congr_left fun i _ => s.toNat_wordBE (2 * i)
  refine ⟨n, hn, hnumbers, fun i hi => ?_, fun hlt => ?_⟩
  · refine ne_zero_of_mem_pointers (s := s.bytes) ?_
    rw [hnumbers]
    exact List.mem_map_of_mem (List.mem_range.2 hi)
  · rw [number, ← s.toNat_wordBE, bne_eq_false_iff_eq.1 (hstop hlt)]
    rfl

/-- The index that is built for files lists their sectors in the one order by names in which files
of one name stay as they were, with zeros after the last sector, and building it for the files in
that order gives the same sector. Any sector lists its numbers before the first zero. -/
theorem index_in_name_order :
    (∀ files : List (String × Nat), files.length ≤ maxFiles →
      (∀ f ∈ files, 1 ≤ f.2 ∧ f.2 ≤ 65535) →
      ∃ sorted, (∀ l, SortsByName files l ↔ l = sorted)
        ∧ pointers (build files).bytes = sorted.map (·.2)
        ∧ (build files).bytes = sorted.flatMap (fun f => Bytes.ofWordBE (UInt16.ofNat f.2))
          ++ List.replicate (256 - 2 * files.length) 0
        ∧ build sorted = build files)
    ∧ ∀ s : Sector, ∃ n ≤ maxFiles, pointers s.bytes = (List.range n).map (number s)
      ∧ (∀ i < n, number s i ≠ 0) ∧ (n < maxFiles → number s n = 0) := by
  refine ⟨fun files hlen hsec => ⟨sort files, fun l => sortsByName_iff, ?_, ?_, ?_⟩, pointers_eq⟩
  · have hperm := sort_perm files
    refine pointers_sector (hperm.length_eq ▸ hlen) fun f hf => ?_
    obtain ⟨hpos, hmax⟩ := hsec f (hperm.mem_iff.1 hf)
    exact ⟨hpos, Nat.lt_succ_of_le hmax⟩
  · have hsorted : (sort files).length = files.length := (sort_perm files).length_eq
    rw [build, bytes_sector (hsorted ▸ hlen), hsorted]
    rfl
  · rw [build, sort_sort, build]

/-- Two files of one name, which stay in the order in which they were. -/
theorem index_in_name_order_twice :
    pointers (build [("B", 7), ("A", 65535), ("B", 3)]).bytes = [65535, 7, 3] := by
  obtain ⟨sorted, hsorted, hpointers, -⟩ := index_in_name_order.1
    [("B", 7), ("A", 65535), ("B", 3)] (by decide) (by decide)
  have horder : SortsByName [("B", 7), ("A", 65535), ("B", 3)]
      [("A", 65535), ("B", 7), ("B", 3)] := by
    refine ⟨by decide, by decide +kernel, fun name => ?_⟩
    by_cases hname : name = "A"
    · rw [hname]; decide
    · have hother : ("A" == name) = false := beq_false_of_ne (Ne.symm hname)
      simp only [List.filter_cons, hother, Bool.false_eq_true, if_false]
  rw [hpointers, ← (hsorted _).1 horder]
  rfl

end TiBench.Volume.Index
