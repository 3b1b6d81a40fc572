import TiBench.Proofs.Compare

/-!
# Comparing bytes under a mask

When bytes match outside a mask, where they differ first if they do not, and of which bytes the
verdict is independent.
-/

namespace TiBench.Compare

variable {a b a' b' : Bytes} {m : Mask} {tolerance : Nat}

/-! ## What a mask covers -/

namespace Mask

/-- The byte lies in one of the ranges. -/
def Covers (m : Mask) (i : Nat) : Prop := ∃ r ∈ m.ranges, r.offset ≤ i ∧ i < r.stop

theorem contains_eq_true_iff {i : Nat} : m.contains i = true ↔ m.Covers i := by
  simp [contains, Range.contains_iff, Covers]

theorem contains_eq_false_iff {i : Nat} : m.contains i = false ↔ ¬m.Covers i := by
  rw [← contains_eq_true_iff, Bool.not_eq_true]

theorem covers_ofRanges (rs : List Range) (i : Nat) :
    (ofRanges rs).Covers i ↔ ∃ r ∈ rs, r.offset ≤ i ∧ i < r.stop := by
  rw [← contains_eq_true_iff, contains_ofRanges]
  simp [Range.contains_iff]

/-- Ranges that do not reach the last offset of all cover their bytes. -/
theorem covers_ofRanges_of_lt {rs : List Range} (h : ∀ r ∈ rs, r.offset + r.length < UInt64.size)
    (i : Nat) : (ofRanges rs).Covers i ↔ ∃ r ∈ rs, r.offset ≤ i ∧ i < r.offset + r.length := by
  rw [covers_ofRanges]
  refine exists_congr fun r => and_congr_right fun hr => ?_
  rw [Range.stop_of_lt (h r hr)]

theorem covers_merge (m n : Mask) (i : Nat) : (m.merge n).Covers i ↔ m.Covers i ∨ n.Covers i := by
  simp only [← contains_eq_true_iff, contains_merge, Bool.or_eq_true]

end Mask

/-! ## The first difference -/

/-- The second byte string is not shorter, and not longer by more than the tolerance. -/
def LengthsMatch (a b : Bytes) (tolerance : Nat) : Prop :=
  a.length ≤ b.length ∧ b.length ≤ a.length + tolerance

/-- The byte strings have the same bytes outside the mask, as far as the first one reaches. -/
def AgreeOutside (m : Mask) (a b : Bytes) : Prop :=
  ∀ i < a.length, ¬m.Covers i → a[i]? = b[i]?

/-- The bytes are the first ones outside the mask that differ. -/
structure Difference.IsFirst (d : Difference) (m : Mask) (a b : Bytes) : Prop where
  expected_eq : a[d.offset]? = some d.expected
  actual_eq : b[d.offset]? = some d.actual
  differ : d.expected ≠ d.actual
  uncovered : ¬m.Covers d.offset
  least : ∀ i < d.offset, ¬m.Covers i → a[i]? = b[i]?

theorem Difference.IsFirst.unique {d e : Difference} (hd : d.IsFirst m a b)
    (he : e.IsFirst m a b) : d = e := by
  have hnot {d e : Difference} (hd : d.IsFirst m a b) (he : e.IsFirst m a b) :
      ¬d.offset < e.offset := by
    intro hlt
    have hsame := he.least d.offset hlt hd.uncovered
    rw [hd.expected_eq, hd.actual_eq] at hsame
    exact hd.differ (Option.some.inj hsame)
  have hoffset : d.offset = e.offset :=
    Nat.le_antisymm (Nat.not_lt.1 (hnot he hd)) (Nat.not_lt.1 (hnot hd he))
  have hexpected := hd.expected_eq
  have hactual := hd.actual_eq
  rw [hoffset, he.expected_eq] at hexpected
  rw [hoffset, he.actual_eq] at hactual
  cases d; cases e
  simp_all

/-- The search stops at the first byte outside the mask that differs, the first bytes standing at
`offset`. -/
theorem exists_of_firstDifference? {offset : Nat} {d : Difference}
    (h : firstDifference? m offset a b = some d) : ∃ i x y, d = ⟨offset + i, x, y⟩
      ∧ a[i]? = some x ∧ b[i]? = some y ∧ x ≠ y ∧ ¬m.Covers (offset + i)
      ∧ ∀ j < i, ¬m.Covers (offset + j) → a[j]? = b[j]? := by
  induction a generalizing offset b with
  | nil => unfold firstDifference? at h; cases h
  | cons x a ih =>
      cases b with
      | nil => cases h
      | cons y b =>
          rw [firstDifference?] at h
          split at h
          · rename_i hfirst
            obtain ⟨i, u, v, rfl, hu, hv, huv, hmask, hleast⟩ := ih h
            rw [Nat.add_assoc, Nat.add_comm 1] at hmask
            refine ⟨i + 1, u, v, by rw [Nat.add_assoc, Nat.add_comm 1], hu, hv, huv, hmask, ?_⟩
            intro j hj hcover
            cases j with
            | zero =>
                rcases hfirst with rfl | hfirst
                · rfl
                · exact absurd (Mask.contains_eq_true_iff.1 hfirst) hcover
            | succ j =>
                refine hleast j (Nat.lt_of_succ_lt_succ hj) ?_
                rwa [Nat.add_assoc, Nat.add_comm 1]
          · rename_i hfirst
            rw [not_or, Bool.not_eq_true, Mask.contains_eq_false_iff] at hfirst
            exact ⟨0, x, y, (Option.some.inj h).symm, rfl, rfl, hfirst.1, hfirst.2,
              fun j hj => absurd hj (Nat.not_lt_zero j)⟩

theorem agreeOutside_iff (hlength : a.length ≤ b.length) : AgreeOutside m a b
    ↔ ∀ i x y, a[i]? = some x → b[i]? = some y → m.contains i = false → x = y := by
  simp only [Mask.contains_eq_false_iff]
  constructor
  · intro h i x y hx hy hcover
    have hsame := h i (List.getElem?_eq_some_iff.1 hx).1 hcover
    rw [hx, hy] at hsame
    exact Option.some.inj hsame
  · intro h i hi hcover
    have hx := List.getElem?_eq_getElem hi
    have hy := List.getElem?_eq_getElem (Nat.lt_of_lt_of_le hi hlength)
    rw [hx, hy, h i _ _ hx hy hcover]

/-- Bytes agree outside the mask, or there is a first difference. -/
theorem agreeOutside_or_isFirst (hlength : a.length ≤ b.length) :
    AgreeOutside m a b ∨ ∃ d, firstDifference? m 0 a b = some d ∧ d.IsFirst m a b := by
  cases hfirst : firstDifference? m 0 a b with
  | none =>
      have hsame := firstDifference?_eq_none_iff.1 hfirst
      simp only [Nat.zero_add] at hsame
      exact Or.inl ((agreeOutside_iff hlength).2 hsame)
  | some d =>
      obtain ⟨i, x, y, rfl, hx, hy, hxy, hcover, hleast⟩ := exists_of_firstDifference? hfirst
      simp only [Nat.zero_add] at hcover hleast ⊢
      exact Or.inr ⟨_, rfl, hx, hy, hxy, hcover, hleast⟩

/-! ## The verdict -/

/-- The error for two bytes that differ. -/
def Difference.error (a b : Bytes) (d : Difference) : CompareError :=
  .mismatch d.offset d.expected d.actual (Text.hexWindow a d.offset) (Text.hexWindow b d.offset)

theorem compareBytes_of_not_lengthsMatch (h : ¬LengthsMatch a b tolerance) :
    compareBytes a b m tolerance = .error (.lengthMismatch a.length b.length tolerance) := by
  rw [LengthsMatch] at h
  exact if_pos (by omega)

/-- Bytes match if and only if their lengths do and they agree outside the mask. -/
theorem compareBytes_eq_ok : compareBytes a b m tolerance = .ok ()
    ↔ LengthsMatch a b tolerance ∧ AgreeOutside m a b := by
  rw [compareBytes_eq_ok_iff]
  exact and_congr_right fun h => (agreeOutside_iff h.1).symm

theorem compareBytes_of_isFirst (h : LengthsMatch a b tolerance) {d : Difference}
    (hd : d.IsFirst m a b) : compareBytes a b m tolerance = .error (d.error a b) := by
  rcases agreeOutside_or_isFirst (m := m) h.1 with hagree | ⟨e, hfirst, he⟩
  · have hsame := hagree _ (List.getElem?_eq_some_iff.1 hd.expected_eq).1 hd.uncovered
    rw [hd.expected_eq, hd.actual_eq] at hsame
    exact absurd (Option.some.inj hsame) hd.differ
  · rw [LengthsMatch] at h
    simp only [compareBytes, hfirst, he.unique hd]
    exact if_neg (by omega)

/-! ## Bytes that do not matter -/

/-- The error without its dumps, which show bytes under the mask too. -/
def CompareError.bare : CompareError → CompareError
  | .mismatch offset expected actual _ _ => .mismatch offset expected actual "" ""
  | e => e

/-- The byte strings have the same length, and the same bytes below `stop` outside the mask. -/
structure SameOutside (m : Mask) (stop : Nat) (a a' : Bytes) : Prop where
  length_eq : a'.length = a.length
  getElem?_eq : ∀ i < stop, ¬m.Covers i → a'[i]? = a[i]?

namespace SameOutside

theorem agreeOutside (ha : SameOutside m a.length a a') (hb : SameOutside m a.length b b')
    (h : AgreeOutside m a b) : AgreeOutside m a' b' := by
  intro i hi hcover
  rw [ha.length_eq] at hi
  rw [ha.getElem?_eq i hi hcover, hb.getElem?_eq i hi hcover, h i hi hcover]

theorem isFirst (ha : SameOutside m a.length a a') (hb : SameOutside m a.length b b')
    {d : Difference} (h : d.IsFirst m a b) : d.IsFirst m a' b' := by
  have hd := (List.getElem?_eq_some_iff.1 h.expected_eq).1
  refine ⟨?_, ?_, h.differ, h.uncovered, fun i hi hcover => ?_⟩
  · rw [ha.getElem?_eq _ hd h.uncovered, h.expected_eq]
  · rw [hb.getElem?_eq _ hd h.uncovered, h.actual_eq]
  · have hlt := Nat.lt_trans hi hd
    rw [ha.getElem?_eq i hlt hcover, hb.getElem?_eq i hlt hcover, h.least i hi hcover]

theorem bare_compareBytes (ha : SameOutside m a.length a a') (hb : SameOutside m a.length b b')
    (tolerance : Nat) : (compareBytes a' b' m tolerance).mapError CompareError.bare
      = (compareBytes a b m tolerance).mapError CompareError.bare := by
  have hlengths : LengthsMatch a' b' tolerance ↔ LengthsMatch a b tolerance := by
    rw [LengthsMatch, LengthsMatch, ha.length_eq, hb.length_eq]
  by_cases h : LengthsMatch a b tolerance
  · rcases agreeOutside_or_isFirst (m := m) h.1 with hagree | ⟨d, -, hd⟩
    · rw [compareBytes_eq_ok.2 ⟨h, hagree⟩,
        compareBytes_eq_ok.2 ⟨hlengths.2 h, ha.agreeOutside hb hagree⟩]
    · rw [compareBytes_of_isFirst h hd,
        compareBytes_of_isFirst (hlengths.2 h) (ha.isFirst hb hd)]
      rfl
  · rw [compareBytes_of_not_lengthsMatch h,
      compareBytes_of_not_lengthsMatch (fun h' => h (hlengths.1 h')), ha.length_eq, hb.length_eq]

end SameOutside

/-! ## Masked equivalence -/

/-- What comparing two byte strings under a mask gives. -/
structure ComparesOutside (m : Mask) (tolerance : Nat) (a b : Bytes) : Prop where
  ok_iff : compareBytes a b m tolerance = .ok ()
    ↔ LengthsMatch a b tolerance ∧ AgreeOutside m a b
  lengths : ¬LengthsMatch a b tolerance →
    compareBytes a b m tolerance = .error (.lengthMismatch a.length b.length tolerance)
  bytes : LengthsMatch a b tolerance → ¬AgreeOutside m a b →
    ∃ d : Difference, d.IsFirst m a b ∧ compareBytes a b m tolerance = .error (d.error a b)
  /-- Neither bytes under the mask nor what the second byte string has more matter. -/
  irrelevant : ∀ a' b', SameOutside m a.length a a' → SameOutside m a.length b b' →
    (compareBytes a' b' m tolerance).mapError CompareError.bare
      = (compareBytes a b m tolerance).mapError CompareError.bare
  merge : ∀ n : Mask, compareBytes a b m tolerance = .ok () →
    compareBytes a b (m.merge n) tolerance = .ok ()
      ∧ compareBytes a b (n.merge m) tolerance = .ok ()
  tolerance_mono : ∀ more, tolerance ≤ more → compareBytes a b m tolerance = .ok () →
    compareBytes a b m more = .ok ()

theorem AgreeOutside.mono {n : Mask} (h : AgreeOutside m a b)
    (hcovers : ∀ i, m.Covers i → n.Covers i) : AgreeOutside n a b :=
  fun i hi hcover => h i hi fun hm => hcover (hcovers i hm)

/-- Byte strings are compared outside the ranges of a mask alone. A mask covers the ranges it is
made of, each from its offset to its end, and two masks together cover what either does. The end of
a range is where its length says, unless the range reaches the last offset of all. -/
theorem masked_equivalence :
    (∀ m tolerance a b, ComparesOutside m tolerance a b)
    ∧ (∀ rs i, (Mask.ofRanges rs).Covers i ↔ ∃ r ∈ rs, r.offset ≤ i ∧ i < r.stop)
    ∧ (∀ rs : List Range, (∀ r ∈ rs, r.offset + r.length < UInt64.size) → ∀ i,
      (Mask.ofRanges rs).Covers i ↔ ∃ r ∈ rs, r.offset ≤ i ∧ i < r.offset + r.length)
    ∧ ∀ m n i, (Mask.merge m n).Covers i ↔ m.Covers i ∨ n.Covers i := by
  refine ⟨fun m tolerance a b => ?_, Mask.covers_ofRanges,
    fun _ => Mask.covers_ofRanges_of_lt, Mask.covers_merge⟩
  constructor
  case ok_iff => exact compareBytes_eq_ok
  case lengths => exact compareBytes_of_not_lengthsMatch
  case bytes =>
    intro h hagree
    obtain ⟨d, -, hd⟩ := (agreeOutside_or_isFirst h.1).resolve_left hagree
    exact ⟨d, hd, compareBytes_of_isFirst h hd⟩
  case irrelevant => exact fun a' b' ha hb => ha.bare_compareBytes hb tolerance
  case merge =>
    intro n hok
    obtain ⟨h, hagree⟩ := compareBytes_eq_ok.1 hok
    exact ⟨compareBytes_eq_ok.2 ⟨h, hagree.mono fun i hi => (m.covers_merge n i).2 (Or.inl hi)⟩,
      compareBytes_eq_ok.2 ⟨h, hagree.mono fun i hi => (n.covers_merge m i).2 (Or.inr hi)⟩⟩
  case tolerance_mono =>
    intro more hle hok
    obtain ⟨h, hagree⟩ := compareBytes_eq_ok.1 hok
    rw [LengthsMatch] at h
    exact compareBytes_eq_ok.2 ⟨⟨h.1, by omega⟩, hagree⟩

/-- Overlapping ranges cover the second byte; the fourth one is in excess. -/
theorem masked_equivalence_overlapping :
    let m := Mask.ofRanges [⟨1, 1⟩, ⟨0, 2⟩, ⟨1, 1⟩, ⟨2, 0⟩]
    m.Covers 1 ∧ compareBytes [1, 2, 3] [1, 9, 3, 7] m 1 = .ok ()
      ∧ compareBytes [1, 2, 3] [1, 9, 3, 7] (m.merge (.ofRanges [⟨2, 8⟩])) 1 = .ok () := by
  intro m
  have hok : compareBytes [1, 2, 3] [1, 9, 3, 7] m 1 = .ok () := by decide +kernel
  exact ⟨(masked_equivalence.2.2.1 _ (by decide) _).2 ⟨⟨1, 1⟩, by decide, by decide⟩, hok,
    ((masked_equivalence.1 m 1 [1, 2, 3] [1, 9, 3, 7]).merge _ hok).1⟩

end TiBench.Compare
