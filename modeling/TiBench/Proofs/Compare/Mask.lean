import TiBench.Proofs.Compare.Binary

/-!
# Masks in order

A mask is the ranges that it was given, without those that hold no byte, in ascending order: masks
of the same ranges are equal, however they were put together.
-/

namespace TiBench.Compare

/-- The range starts first, or starts at the same byte and is not longer. -/
def Range.Before (a b : Range) : Prop :=
  a.offset < b.offset ∨ a.offset = b.offset ∧ a.length ≤ b.length

namespace Range

variable {a b c : Range}

theorem le_iff : a.le b = true ↔ a.Before b := by
  simp [le, Before]

theorem Before.trans (hab : a.Before b) (hbc : b.Before c) : a.Before c := by
  rw [Before] at *
  omega

theorem before_or_before (a b : Range) : a.Before b ∨ b.Before a := by
  rw [Before, Before]
  omega

theorem Before.antisymm (hab : a.Before b) (hba : b.Before a) : a = b := by
  rw [Before] at hab hba
  cases a
  cases b
  congr <;> dsimp only at * <;> omega

end Range

namespace Mask

variable {a b c m : Mask} {r : Range} {rs ss : List Range}

/-- The ranges are in ascending order, and each holds a byte. -/
structure Ordered (m : Mask) : Prop where
  ascending : m.ranges.Pairwise Range.Before
  length_pos : ∀ r ∈ m.ranges, 0 < r.length

/-- The ranges that hold a byte. -/
def held (rs : List Range) : List Range := rs.filter (0 < ·.length)

theorem pairwise_place (h : rs.Pairwise Range.Before) : (place r rs).Pairwise Range.Before := by
  induction rs with
  | nil => exact List.pairwise_singleton _ r
  | cons s rs ih =>
      obtain ⟨hs, hrs⟩ := List.pairwise_cons.1 h
      rw [place]
      split
      · rename_i hle
        have hrs := Range.le_iff.1 hle
        refine List.pairwise_cons.2 ⟨fun t ht => ?_, h⟩
        rcases List.mem_cons.1 ht with rfl | ht
        · exact hrs
        · exact hrs.trans (hs t ht)
      · rename_i hle
        have hsr : s.Before r := (Range.before_or_before r s).resolve_left
          fun hrs => hle (Range.le_iff.2 hrs)
        refine List.pairwise_cons.2 ⟨fun t ht => ?_, ih hrs⟩
        rcases List.mem_cons.1 ((place_perm r rs).mem_iff.1 ht) with rfl | ht
        · exact hsr
        · exact hs t ht

theorem ordered_empty : Ordered empty := ⟨.nil, nofun⟩

theorem Ordered.insert (h : m.Ordered) (r : Range) : (m.insert r).Ordered := by
  rw [Mask.insert]
  split
  · exact h
  · rename_i hlength
    refine ⟨pairwise_place h.ascending, fun s hs => ?_⟩
    rcases List.mem_cons.1 ((place_perm r m.ranges).mem_iff.1 hs) with rfl | hs
    · exact Nat.pos_of_ne_zero hlength
    · exact h.length_pos s hs

theorem Ordered.foldl_insert (h : m.Ordered) (rs : List Range) :
    (rs.foldl Mask.insert m).Ordered := by
  induction rs generalizing m with
  | nil => exact h
  | cons r rs ih => exact ih (h.insert r)

theorem ordered_ofRanges (rs : List Range) : (ofRanges rs).Ordered := ordered_empty.foldl_insert rs

theorem Ordered.merge (h : a.Ordered) (b : Mask) : (a.merge b).Ordered := h.foldl_insert b.ranges

/-! ## What the ranges of a mask are -/

theorem insert_perm (m : Mask) (r : Range) : (m.insert r).ranges.Perm (m.ranges ++ held [r]) := by
  rw [insert, held, List.filter_singleton]
  split
  · rename_i hlength
    simp [hlength]
  · rename_i hlength
    simp only [Nat.pos_of_ne_zero hlength, decide_true, cond_true]
    exact (place_perm r m.ranges).trans (List.perm_append_singleton r m.ranges).symm

theorem foldl_insert_perm (m : Mask) (rs : List Range) :
    (rs.foldl insert m).ranges.Perm (m.ranges ++ held rs) := by
  induction rs generalizing m with
  | nil => rw [held, List.filter_nil, List.append_nil]; rfl
  | cons r rs ih =>
      have hheld : held (r :: rs) = held [r] ++ held rs := by
        rw [held, held, held, ← List.filter_append, List.singleton_append]
      rw [List.foldl_cons, hheld, ← List.append_assoc]
      exact (ih _).trans ((insert_perm m r).append_right _)

theorem ofRanges_perm (rs : List Range) : (ofRanges rs).ranges.Perm (held rs) :=
  foldl_insert_perm empty rs

theorem Ordered.held_eq (h : m.Ordered) : held m.ranges = m.ranges :=
  List.filter_eq_self.2 fun r hr => decide_eq_true (h.length_pos r hr)

theorem merge_perm (a : Mask) (hb : b.Ordered) :
    (a.merge b).ranges.Perm (a.ranges ++ b.ranges) := by
  have hperm := foldl_insert_perm a b.ranges
  rwa [hb.held_eq] at hperm

theorem Ordered.eq_of_perm (ha : a.Ordered) (hb : b.Ordered) (h : a.ranges.Perm b.ranges) :
    a = b := by
  have hranges : a.ranges = b.ranges :=
    h.eq_of_pairwise (fun _ _ _ _ => Range.Before.antisymm) ha.ascending hb.ascending
  cases a
  cases b
  rw [mk.injEq]
  exact hranges

/-- The order in which ranges are given does not matter. -/
theorem ofRanges_eq_of_perm (h : rs.Perm ss) : ofRanges rs = ofRanges ss :=
  (ordered_ofRanges rs).eq_of_perm (ordered_ofRanges ss)
    ((ofRanges_perm rs).trans ((h.filter _).trans (ofRanges_perm ss).symm))

theorem Ordered.merge_comm (ha : a.Ordered) (hb : b.Ordered) : a.merge b = b.merge a :=
  (ha.merge b).eq_of_perm (hb.merge a)
    ((merge_perm a hb).trans (List.perm_append_comm.trans (merge_perm b ha).symm))

theorem Ordered.merge_assoc (ha : a.Ordered) (hb : b.Ordered) (hc : c.Ordered) :
    (a.merge b).merge c = a.merge (b.merge c) := by
  refine ((ha.merge b).merge c).eq_of_perm (ha.merge _) ?_
  calc List.Perm ((a.merge b).merge c).ranges ((a.merge b).ranges ++ c.ranges) := merge_perm _ hc
    List.Perm _ (a.ranges ++ b.ranges ++ c.ranges) := (merge_perm a hb).append_right _
    List.Perm _ (a.ranges ++ (b.merge c).ranges) := by
      rw [List.append_assoc]
      exact (merge_perm b hc).symm.append_left _
    List.Perm _ (a.merge (b.merge c)).ranges := (merge_perm a (hb.merge c)).symm

end Mask

end TiBench.Compare
