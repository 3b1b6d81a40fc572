import TiBench.Compare.Binary
import TiBench.Compare.Lines
import Mathlib.Data.List.Forall2

/-!
# Laws of comparisons

The bytes that a mask leaves out, and when bytes or lines match.
-/

namespace TiBench.Compare

/-! ## Masks -/

theorem Range.contains_iff {r : Range} {i : Nat} :
    r.contains i = true ↔ r.offset ≤ i ∧ i < r.stop := by
  rw [contains, Bool.and_eq_true, decide_eq_true_iff, decide_eq_true_iff]

theorem Range.stop_of_lt {r : Range} (h : r.offset + r.length < UInt64.size) :
    r.stop = r.offset + r.length := sizeSum_of_lt h

theorem Range.contains_of_length_eq_zero {r : Range} (h : r.length = 0) (i : Nat) :
    r.contains i = false := by
  rw [← Bool.not_eq_true, contains_iff, stop, h, sizeSum, Nat.add_zero]
  rintro ⟨hstart, hstop⟩
  have hwrap := Nat.mod_le r.offset UInt64.size
  omega

namespace Mask

theorem place_perm (r : Range) (rs : List Range) : (place r rs).Perm (r :: rs) := by
  induction rs with
  | nil => exact .refl _
  | cons s rs ih =>
      rw [place]
      split
      · exact .refl _
      · exact (ih.cons s).trans (.swap r s rs)

theorem contains_insert (m : Mask) (r : Range) (i : Nat) :
    (m.insert r).contains i = (r.contains i || m.contains i) := by
  rw [insert]
  split
  · rename_i hempty
    rw [Range.contains_of_length_eq_zero hempty, Bool.false_or]
  · rw [contains, contains, (place_perm r m.ranges).any_eq, List.any_cons]

theorem contains_foldl_insert (m : Mask) (rs : List Range) (i : Nat) :
    (rs.foldl insert m).contains i = (m.contains i || rs.any (·.contains i)) := by
  induction rs generalizing m with
  | nil => rw [List.foldl_nil, List.any_nil, Bool.or_false]
  | cons r rs ih =>
      rw [List.foldl_cons, ih, contains_insert, List.any_cons, Bool.or_comm (r.contains i),
        Bool.or_assoc]

/-- The mask of some ranges leaves out the bytes in any of them. -/
theorem contains_ofRanges (rs : List Range) (i : Nat) :
    (ofRanges rs).contains i = rs.any (·.contains i) := by
  rw [ofRanges, contains_foldl_insert]; rfl

theorem contains_merge (a b : Mask) (i : Nat) :
    (a.merge b).contains i = (a.contains i || b.contains i) := contains_foldl_insert a b.ranges i

end Mask

/-! ## Bytes -/

theorem firstDifference?_eq_none_iff {m : Mask} {offset : Nat} {a b : Bytes} :
    firstDifference? m offset a b = none
      ↔ ∀ i x y, a[i]? = some x → b[i]? = some y → m.contains (offset + i) = false → x = y := by
  induction a generalizing offset b with
  | nil => exact ⟨fun _ _ _ _ hx => (by cases hx), fun _ => by unfold firstDifference?; rfl⟩
  | cons x a ih =>
      cases b with
      | nil => exact ⟨fun _ _ _ _ _ hy => (by cases hy), fun _ => rfl⟩
      | cons y b =>
          rw [firstDifference?]
          constructor
          · intro h
            split at h
            · rename_i hfirst
              intro i u v hu hv hmask
              cases i with
              | zero =>
                  obtain rfl := Option.some.inj hu
                  obtain rfl := Option.some.inj hv
                  exact hfirst.resolve_right (hmask ▸ Bool.false_ne_true)
              | succ i =>
                  exact ih.1 h i u v hu hv (by rwa [Nat.add_right_comm, Nat.add_assoc])
            · cases h
          · intro h
            have hfirst : x = y ∨ m.contains offset = true := by
              by_cases hmask : m.contains offset = true
              · exact Or.inr hmask
              · exact Or.inl (h 0 x y rfl rfl (Bool.not_eq_true _ ▸ hmask))
            rw [if_pos hfirst]
            refine ih.2 fun i u v hu hv hmask => h (i + 1) u v hu hv ?_
            rwa [Nat.add_right_comm, Nat.add_assoc] at hmask

/-- Bytes match if the second ones are not fewer and not too many more, and the same outside the
mask. -/
theorem compareBytes_eq_ok_iff {a b : Bytes} {m : Mask} {tolerance : Nat} :
    compareBytes a b m tolerance = .ok ()
      ↔ (a.length ≤ b.length ∧ b.length ≤ a.length + tolerance)
        ∧ ∀ i x y, a[i]? = some x → b[i]? = some y → m.contains i = false → x = y := by
  have hnone : firstDifference? m 0 a b = none ↔ _ := firstDifference?_eq_none_iff
  simp only [Nat.zero_add] at hnone
  rw [← hnone]
  simp only [compareBytes]
  constructor
  · intro h
    split at h
    · cases h
    · split at h
      · rename_i hfits hsame
        exact ⟨by omega, hsame⟩
      · cases h
  · rintro ⟨hlength, hsame⟩
    rw [if_neg (by omega), hsame]

/-- Without a mask and a tolerance bytes match if they are the same. -/
theorem compareBytes_empty_eq_ok_iff {a b : Bytes} :
    compareBytes a b .empty 0 = .ok () ↔ b = a := by
  rw [compareBytes_eq_ok_iff, Nat.add_zero]
  constructor
  · rintro ⟨hlength, hsame⟩
    refine List.ext_getElem (Nat.le_antisymm hlength.2 hlength.1) fun i hb ha => ?_
    exact (hsame i _ _ (List.getElem?_eq_getElem ha) (List.getElem?_eq_getElem hb) rfl).symm
  · rintro rfl
    exact ⟨⟨Nat.le_refl _, Nat.le_refl _⟩,
      fun _ _ _ hx hy _ => Option.some.inj (hx.symm.trans hy)⟩

/-! ## Lines -/

theorem firstLineDifference?_of_keys {m : TextMask} {es as : List (List Char)}
    (h : List.Forall₂ (fun e a => m.key e = m.key a) es as) (line : Nat) :
    firstLineDifference? m line es as = none := by
  induction h generalizing line with
  | nil => rw [firstLineDifference?]
  | cons hkey _ ih =>
      rw [firstLineDifference?, if_pos (Or.inr ?_), ih]
      simp only [TextMask.shown, Option.map_some, Option.getD_some, hkey]

/-- Texts match if their lines agree in what is compared of them. -/
theorem compareText_of_keys {expected actual : String} {m : TextMask}
    (h : List.Forall₂ (fun e a => m.key e = m.key a) (Text.lines expected.toList)
      (Text.lines actual.toList)) : compareText expected actual m = .ok () := by
  rw [compareText, firstLineDifference?_of_keys h]

end TiBench.Compare
