import Mathlib.Algebra.Group.Nat.Defs
import TiBench.Zip.Field

/-!
# Fields read back

Numbers that fit into their bytes are read back, and where a mark stands.
-/

namespace TiBench.Zip

/-! ## Numbers -/

@[simp] theorem length_little (n value : Nat) : (little n value).length = n := by
  induction n generalizing value with
  | zero => rfl
  | succ n ih => rw [little, List.length_cons, ih]

theorem ofLittle_little {n value : Nat} (h : value < 256 ^ n) :
    ofLittle (little n value) = value := by
  induction n generalizing value with
  | zero => exact (Nat.lt_one_iff.1 h).symm
  | succ n ih =>
      have hrest : value / 256 < 256 ^ n := by
        rw [Nat.pow_succ] at h
        omega
      have hcons (b : UInt8) (bs : Bytes) : ofLittle (b :: bs) = b.toNat + 256 * ofLittle bs := rfl
      rw [little, hcons, ih hrest, UInt8.toNat_ofNat']
      omega

variable {b m : Bytes} {n offset value : Nat}

theorem number?_little (h : value < 256 ^ n) (b : Bytes) :
    number? (little n value ++ b) 0 n = some value := by
  have htake : (little n value ++ b).take n = little n value :=
    List.take_left' (length_little n value)
  simp only [number?, List.drop_zero, htake, length_little, if_true, ofLittle_little h]

theorem number?_zero (n : Nat) (b : Bytes) : number? (little n 0 ++ b) 0 n = some 0 :=
  number?_little (Nat.pow_pos (by decide)) b

theorem number?_append (h : b.length ≤ offset) (c : Bytes) (n : Nat) :
    number? (b ++ c) offset n = number? c (offset - b.length) n := by
  rw [number?, number?, List.drop_append, List.drop_eq_nil_of_le h, List.nil_append]

theorem number?_eq_none (h : b.length - offset < n) : number? b offset n = none := by
  rw [number?]
  refine if_neg ?_
  rw [List.length_take, List.length_drop]
  omega

/-! ## Places of a mark -/

theorem length_mark (kind version : UInt8) : (mark kind version).length = 4 := rfl

@[simp] theorem length_entryMark : entryMark.length = 4 := length_mark 3 4

@[simp] theorem length_listedMark : listedMark.length = 4 := length_mark 1 2

@[simp] theorem length_endMark : endMark.length = 4 := length_mark 5 6

/-- The places of `m` in `b`, by recursion from the front. -/
def placesFrom (m : Bytes) (offset : Nat) : (b : Bytes) → List Nat
  | [] => []
  | c :: b =>
    if (c :: b).take m.length = m then offset :: placesFrom m (offset + 1) b
    else placesFrom m (offset + 1) b

theorem places_eq (m : Bytes) (offset : Nat) (b : Bytes) :
    places m offset b = placesFrom m offset b := by
  -- The loop counts from the end: `k` is what is left to count when `b` is done.
  suffices hloop : ∀ (b : Bytes) (k : Nat), b.foldr (fun c (acc : Nat × Bytes × List Nat) =>
      (acc.1 - 1, (c :: acc.2.1).take m.length, if (c :: acc.2.1).take m.length = m
        then (offset + acc.1 - 1) :: acc.2.2 else acc.2.2)) (k + b.length, [], [])
          = (k, b.take m.length, placesFrom m (offset + k) b) by
    have hplaces := congrArg (·.2.2) (hloop b 0)
    rw [Nat.zero_add] at hplaces
    exact hplaces
  intro b
  induction b with
  | nil => exact fun k => by rw [List.take_nil]; rfl
  | cons c b ih =>
      intro k
      have hk : k + (c :: b).length = k + 1 + b.length := by
        rw [List.length_cons]
        omega
      have htake : (c :: b.take m.length).take m.length = (c :: b).take m.length := by
        cases m.length with
        | zero => rfl
        | succ n => rw [List.take_succ_cons, List.take_succ_cons, List.take_take,
            Nat.min_eq_left (Nat.le_succ n)]
      rw [hk, List.foldr_cons, ih (k + 1)]
      simp only [htake, placesFrom, Nat.add_sub_cancel, ← Nat.add_assoc]

theorem places_append (m : Bytes) (offset : Nat) (b c : Bytes) :
    ∃ before, places m offset (b ++ c) = before ++ places m (offset + b.length) c := by
  simp only [places_eq]
  induction b generalizing offset with
  | nil => exact ⟨[], rfl⟩
  | cons x b ih =>
      obtain ⟨before, ih⟩ := ih (offset + 1)
      rw [List.cons_append, placesFrom, ih, List.length_cons, Nat.add_comm b.length 1,
        Nat.add_assoc]
      split
      · exact ⟨offset :: before, rfl⟩
      · exact ⟨before, rfl⟩

theorem le_of_mem_places {i : Nat} (h : i ∈ places m offset b) : offset ≤ i := by
  rw [places_eq] at h
  induction b generalizing offset with
  | nil => cases h
  | cons x b ih =>
      have hrest (h : i ∈ placesFrom m (offset + 1) b) : offset ≤ i := Nat.le_of_succ_le (ih h)
      rw [placesFrom] at h
      split at h
      · rcases List.mem_cons.1 h with rfl | h
        · exact Nat.le_refl _
        · exact hrest h
      · exact hrest h

/-- The first place of a mark that stands at the start. -/
theorem places_mark_append (hm : m ≠ []) (offset : Nat) (b : Bytes) :
    ∃ after, places m offset (m ++ b) = offset :: after ∧ ∀ i ∈ after, offset < i := by
  obtain ⟨x, m', rfl⟩ := List.exists_cons_of_ne_nil hm
  refine ⟨placesFrom (x :: m') (offset + 1) (m' ++ b), ?_, fun i hi => ?_⟩
  · rw [places_eq, List.cons_append, placesFrom, if_pos]
    exact List.take_left' rfl
  · rw [← places_eq] at hi
    exact le_of_mem_places hi

end TiBench.Zip
