import Mathlib.Algebra.Ring.Int.Defs
import TiBench.Sample.Records
import TiBench.Proofs.Disk.Records

/-!
# Laws of checksums

Sample records have right checksums, a byte that is changed makes a checksum wrong unless it changes
by a multiple of the modulus, and records that a disk gives back as they were keep theirs.
-/

namespace TiBench.Sample

variable {records : List Bytes} {r : Bytes} {i k : Nat} {a b : UInt8}

/-- The sum of the bytes, each less the character zero, is divisible by eighty. -/
def Lawful (r : Bytes) : Prop := (80 : Int) ∣ (r.map fun b => (b.toNat : Int) - 0x30).sum

instance (r : Bytes) : Decidable (Lawful r) := inferInstanceAs (Decidable ((80 : Int) ∣ _))

theorem digitSum_eq_sum (r : Bytes) : digitSum r = (r.map fun b => (b.toNat : Int) - 0x30).sum := by
  rw [List.sum_eq_foldr, List.foldr_map]
  rfl

theorem isChecksumOk_iff : isChecksumOk r = true ↔ Lawful r := by
  rw [isChecksumOk, beq_iff_eq, digitSum_eq_sum, checksumModulus, Lawful, Int.dvd_iff_emod_eq_zero]

theorem lawful_append_singleton :
    Lawful (r ++ [b]) ↔ (80 : Int) ∣ digitSum r + (b.toNat - 0x30) := by
  rw [Lawful, List.map_append, List.sum_append, digitSum_eq_sum, List.map_singleton,
    List.sum_singleton]

/-! ## Sample records -/

/-- The last byte of a sample record. -/
def balanceByte (r : Bytes) : UInt8 := UInt8.ofNat (0x30 + (-digitSum r % checksumModulus).toNat)

theorem toNat_balanceByte (r : Bytes) :
    (balanceByte r).toNat = 0x30 + (-digitSum r % checksumModulus).toNat
      ∧ 0 ≤ -digitSum r % checksumModulus ∧ -digitSum r % checksumModulus < 80 := by
  have hlow := Int.emod_nonneg (-digitSum r) (show checksumModulus ≠ 0 by decide)
  have hhigh := Int.emod_lt_of_pos (-digitSum r) (show 0 < checksumModulus by decide)
  refine ⟨UInt8.toNat_ofNat_of_lt' ?_, hlow, hhigh⟩
  rw [checksumModulus] at hhigh
  rw [UInt8.size, checksumModulus]
  omega

theorem lawful_balanced (r : Bytes) : Lawful (r ++ [balanceByte r]) := by
  obtain ⟨hbyte, hlow, -⟩ := toNat_balanceByte r
  rw [lawful_append_singleton, hbyte]
  rw [checksumModulus] at hlow ⊢
  omega

theorem toNat_digit (n : Nat) : (UInt8.ofNat (0x30 + n % 10)).toNat = 0x30 + n % 10 :=
  UInt8.toNat_ofNat_of_lt' (by rw [UInt8.size]; omega)

/-- The digits of a sample record before its last byte. -/
def pattern (index length : Nat) : Bytes :=
  (List.range (length - 1)).map fun j => UInt8.ofNat (0x30 + sizeSum index (3 * j) % 10)

theorem checksumRecord_eq (index length : Nat) : checksumRecord index length
    = pattern index length ++ [balanceByte (pattern index length)] := rfl

theorem length_checksumRecord (index : Nat) {length : Nat} (h : 1 ≤ length) :
    (checksumRecord index length).length = length := by
  rw [checksumRecord_eq, pattern, List.length_append, List.length_map, List.length_range,
    List.length_singleton, Nat.sub_add_cancel h]

theorem bounds_of_mem_checksumRecord {index length : Nat} (h : b ∈ checksumRecord index length) :
    0x30 ≤ b.toNat ∧ b.toNat ≤ 0x7f := by
  rcases List.mem_append.1 (checksumRecord_eq index length ▸ h) with h | h
  · obtain ⟨j, -, rfl⟩ := List.mem_map.1 h
    rw [toNat_digit]
    omega
  · rw [List.mem_singleton.1 h]
    obtain ⟨hbyte, hlow, hhigh⟩ := toNat_balanceByte (pattern index length)
    omega

theorem lawful_checksumRecord (index length : Nat) : Lawful (checksumRecord index length) :=
  lawful_balanced _

/-! ## The first wrong checksum -/

/-- The number is that of the first record whose checksum is wrong. -/
structure FirstViolation (records : List Bytes) (i : Nat) : Prop where
  violates : ∃ r, records[i]? = some r ∧ ¬Lawful r
  least : ∀ j < i, ∀ r, records[j]? = some r → Lawful r

theorem verifyChecksums_eq_ok_iff :
    verifyChecksums records = .ok () ↔ ∀ r ∈ records, Lawful r := by
  have hnone : records.findIdx? (fun r => !isChecksumOk r) = none ↔ ∀ r ∈ records, Lawful r := by
    rw [List.findIdx?_eq_none_iff]
    exact forall₂_congr fun r _ => by rw [Bool.not_eq_false', isChecksumOk_iff]
  rw [← hnone, verifyChecksums]
  cases records.findIdx? fun r => !isChecksumOk r <;> simp

theorem verifyChecksums_eq_error_iff :
    verifyChecksums records = .error ⟨i⟩ ↔ FirstViolation records i := by
  have hfirst : records.findIdx? (fun r => !isChecksumOk r) = some i
      ↔ FirstViolation records i := by
    rw [List.findIdx?_eq_some_iff_getElem]
    simp only [Bool.not_eq_true', ← Bool.not_eq_true, isChecksumOk_iff, Decidable.not_not]
    constructor
    · rintro ⟨hi, hviolates, hleast⟩
      refine ⟨⟨_, List.getElem?_eq_getElem hi, hviolates⟩, fun j hj r hr => ?_⟩
      obtain ⟨-, rfl⟩ := List.getElem?_eq_some_iff.1 hr
      exact hleast j hj
    · rintro ⟨⟨r, hr, hviolates⟩, hleast⟩
      obtain ⟨hi, rfl⟩ := List.getElem?_eq_some_iff.1 hr
      exact ⟨hi, hviolates, fun j hj => hleast j hj _ (List.getElem?_eq_getElem _)⟩
  rw [← hfirst, verifyChecksums]
  cases records.findIdx? fun r => !isChecksumOk r <;> simp

/-! ## Changed bytes -/

theorem lawful_set_iff (h : Lawful r) (hk : r[k]? = some a) :
    Lawful (r.set k b) ↔ (80 : Int) ∣ b.toNat - a.toNat := by
  obtain ⟨hlt, rfl⟩ := List.getElem?_eq_some_iff.1 hk
  rw [Lawful, ← List.take_append_drop k r, List.drop_eq_getElem_cons hlt] at h
  rw [Lawful, List.set_eq_take_cons_drop b hlt]
  simp only [List.map_append, List.map_cons, List.sum_append, List.sum_cons] at h ⊢
  omega

theorem verifyChecksums_set (h : ∀ r ∈ records, Lawful r) (hi : i < records.length) (r : Bytes) :
    verifyChecksums (records.set i r) = if Lawful r then .ok () else .error ⟨i⟩ := by
  split
  · rename_i hr
    refine verifyChecksums_eq_ok_iff.2 fun s hs => ?_
    rcases List.mem_or_eq_of_mem_set hs with hs | rfl
    · exact h s hs
    · exact hr
  · rename_i hr
    refine verifyChecksums_eq_error_iff.2 ⟨⟨r, List.getElem?_set_self hi, hr⟩, fun j hj s hs => ?_⟩
    rw [List.getElem?_set_ne (Nat.ne_of_gt hj)] at hs
    exact h s (List.mem_of_getElem? hs)

theorem verifyChecksums_set_byte (h : verifyChecksums records = .ok ()) (hi : records[i]? = some r)
    (hk : r[k]? = some a) : verifyChecksums (records.set i (r.set k b))
      = if (80 : Int) ∣ b.toNat - a.toNat then .ok () else .error ⟨i⟩ := by
  have hlawful := verifyChecksums_eq_ok_iff.1 h
  rw [verifyChecksums_set hlawful (List.getElem?_eq_some_iff.1 hi).1]
  simp only [lawful_set_iff (hlawful r (List.mem_of_getElem? hi)) hk]

/-! ## Stored records -/

/-- The sample records for indices and lengths. -/
def checksumRecords (samples : List (Nat × Nat)) : List Bytes :=
  samples.map fun s => checksumRecord s.1 s.2

theorem verifyChecksums_checksumRecords (samples : List (Nat × Nat)) :
    verifyChecksums (checksumRecords samples) = .ok () := by
  refine verifyChecksums_eq_ok_iff.2 fun r hr => ?_
  obtain ⟨s, -, rfl⟩ := List.mem_map.1 hr
  exact lawful_checksumRecord s.1 s.2

theorem getLast?_ne_of_mem_checksumRecords {samples : List (Nat × Nat)}
    (h : r ∈ checksumRecords samples) : r.getLast? ≠ some 0x20 := by
  obtain ⟨s, -, rfl⟩ := List.mem_map.1 h
  exact fun hlast =>
    absurd (bounds_of_mem_checksumRecord (List.mem_of_getLast? hlast)).1 (by decide)

open Volume (Disk)

/-- Sample records have the length asked for, no byte outside their range and right checksums. The
first wrong checksum in a list is reported, and a changed byte makes one wrong unless it changes by
a multiple of eighty. A disk that passes its check gives records of varying length back as they
were, and so display records of one length that do not end in a space, as sample records never do:
what it gives back of these has right checksums again. -/
theorem checksums_hold_and_detect :
    (∀ index length, 1 ≤ length → (checksumRecord index length).length = length
      ∧ (∀ b ∈ checksumRecord index length, 0x30 ≤ b.toNat ∧ b.toNat ≤ 0x7f)
      ∧ Lawful (checksumRecord index length))
    ∧ (∀ records, (verifyChecksums records = .ok () ↔ ∀ r ∈ records, Lawful r)
      ∧ ∀ i, verifyChecksums records = .error ⟨i⟩ ↔ FirstViolation records i)
    ∧ (∀ records, verifyChecksums records = .ok () → ∀ (i k : Nat) (r : Bytes) (a b : UInt8),
      records[i]? = some r → r[k]? = some a → verifyChecksums (records.set i (r.set k b))
        = if (80 : Int) ∣ b.toNat - a.toNat then .ok () else .error ⟨i⟩)
    ∧ ∀ d : Disk, d.check = .ok [] → ∀ (name : String) (f : RecordFormat),
      f.family = .variable ∨ f.content = .display →
      (∀ records, (f.family = .fixed → ∀ r ∈ records, r.getLast? ≠ some 0x20) →
        (d.addRecords name records (.records f)).error? = none →
        (d.addRecords name records (.records f)).disk.extractRecords name
          = .ok (records.map .ok))
      ∧ ∀ samples, (d.addRecords name (checksumRecords samples) (.records f)).error? = none →
        ∃ xs, (d.addRecords name (checksumRecords samples) (.records f)).disk.extractRecords name
            = .ok (xs.map .ok)
          ∧ verifyChecksums xs = .ok () := by
  refine ⟨fun index length h => ⟨length_checksumRecord index h,
      fun _ hb => bounds_of_mem_checksumRecord hb, lawful_checksumRecord index length⟩,
    fun _ => ⟨verifyChecksums_eq_ok_iff, fun _ => verifyChecksums_eq_error_iff⟩,
    fun _ h _ _ _ _ _ hi hk => verifyChecksums_set_byte h hi hk,
    fun d hcheck name f hformat => ?_⟩
  have hdisplay : f.family = .fixed → f.content = .display := fun hf =>
    hformat.resolve_left fun hv => nomatch hf.symm.trans hv
  refine ⟨fun records hlast h => ?_, fun samples h => ⟨checksumRecords samples, ?_,
    verifyChecksums_checksumRecords samples⟩⟩
  · exact Disk.extractRecords_addRecords hcheck (fun hf => ⟨hdisplay hf, hlast hf⟩) h
  · exact Disk.extractRecords_addRecords hcheck
      (fun hf => ⟨hdisplay hf, fun _ hr => getLast?_ne_of_mem_checksumRecords hr⟩) h

/-- Two sample records in slots on a blank disk, and the same with one byte raised. -/
theorem checksums_hold_and_detect_blank :
    ∃ d, Disk.init .usual "WORK" 40 1 1 = .ok d
      ∧ (∃ xs, (d.addRecords "A" (checksumRecords [(3, 5), (7, 1)])
          (.records ⟨.display, .fixed, 80, by decide, by decide⟩)).disk.extractRecords "A"
            = .ok (xs.map .ok) ∧ verifyChecksums xs = .ok ())
      ∧ (checksumRecord 3 5).length = 5
      ∧ verifyChecksums ((checksumRecords [(3, 5), (7, 1)]).set 0 ((checksumRecord 3 5).set 0 0x34))
        = .error ⟨0⟩ := by
  obtain ⟨d, hd, hadded⟩ : ∃ d, Disk.init .usual "WORK" 40 1 1 = .ok d
      ∧ (d.addRecords "A" (checksumRecords [(3, 5), (7, 1)])
          (.records ⟨.display, .fixed, 80, by decide, by decide⟩)).error?.isNone = true :=
    Result.exists_ok_of_any (by decide +kernel)
  have hcheck := Disk.check_eq_nil_iff.2 (Disk.consistent_init hd).1
  obtain ⟨hsample, hverify, hchange, hstored⟩ := checksums_hold_and_detect
  refine ⟨d, hd, ?_, (hsample 3 5 (by decide)).1, ?_⟩
  · exact (hstored d hcheck "A" _ (Or.inr rfl)).2 _ (Option.isNone_iff_eq_none.1 hadded)
  · have hlawful := (hverify (checksumRecords [(3, 5), (7, 1)])).1.2 (by decide +kernel)
    exact hchange _ hlawful 0 0 _ 0x33 0x34 rfl (by decide)

end TiBench.Sample
