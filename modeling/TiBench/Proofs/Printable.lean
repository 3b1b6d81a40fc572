import Mathlib.Algebra.BigOperators.Ring.Finset
import TiBench.Proofs.Checksum
import TiBench.Proofs.Compare.Escape

/-!
# Sample records as text

The last byte of a sample record is printable unless the digits before it add up to one modulo
eighty. Then it is the delete character, and the record is not shown as it is.
-/

namespace TiBench

/-- A character of ASCII from the space to the tilde. -/
def Text.Printable (b : UInt8) : Prop := 0x20 ≤ b.toNat ∧ b.toNat ≤ 0x7e

instance (b : UInt8) : Decidable (Text.Printable b) := inferInstanceAs (Decidable (_ ∧ _))

/-! ## Bytes that are not escaped -/

namespace Compare.Token

open Text (Printable ofAscii)

variable {b : UInt8} {data : Bytes}

theorem shown_true_iff : Shown true b ↔ Printable b ∧ b ≠ 0x5c := and_assoc.symm

theorem backslash_mem_escaped_iff : '\\' ∈ escaped true b ↔ ¬Shown true b := by
  rw [escaped]
  split
  · rename_i hshown
    have hplain : ofAscii b ≠ '\\' := fun h =>
      hshown.2.2 ((Text.ofAscii_inj hshown.lt (by decide)).1 h)
    simp [hshown, hplain.symm]
  · rename_i hshown
    simp [hshown, source]

/-- There is an escape in what is written of some bytes unless each of them is a printable character
other than the backslash. -/
theorem backslash_mem_escapeBytes_iff : '\\' ∈ (Text.escapeBytes true data).toList
    ↔ ¬((∀ b ∈ data, Printable b) ∧ 0x5c ∉ data) := by
  have hshown : (∀ b ∈ data, Shown true b) ↔ (∀ b ∈ data, Printable b) ∧ 0x5c ∉ data := by
    simp only [shown_true_iff]
    exact ⟨fun h => ⟨fun b hb => (h b hb).1, fun hb => (h _ hb).2 rfl⟩,
      fun h b hb => ⟨h.1 b hb, fun he => h.2 (he ▸ hb)⟩⟩
  rw [← hshown, toList_escapeBytes, List.mem_flatMap]
  simp only [backslash_mem_escaped_iff]
  push Not
  rfl

theorem toList_escapeBytes_of_printable (h : ∀ b ∈ data, Printable b) (hslash : 0x5c ∉ data) :
    (Text.escapeBytes true data).toList = data.map ofAscii := by
  have hbyte : ∀ b ∈ data, escaped true b = [ofAscii b] := fun b hb =>
    if_pos (shown_true_iff.2 ⟨h b hb, fun he => hslash (he ▸ hb)⟩)
  rw [toList_escapeBytes, List.flatMap_def, List.map_congr_left hbyte, ← List.flatMap_def]
  exact List.flatMap_pure_eq_map ofAscii data

end Compare.Token

namespace Sample

open Text (Printable)

variable {index length : Nat} {b : UInt8}

/-! ## The digits added up -/

/-- The first `n` digits of the sample records with this index, added up. -/
def digitTotal (index n : Nat) : Nat := ((List.range n).map fun j => (index + 3 * j) % 10).sum

theorem digitTotal_mod_ten (index n : Nat) : digitTotal (index % 10) n = digitTotal index n := by
  refine congrArg List.sum (List.map_congr_left fun j _ => ?_)
  rw [Nat.mod_add_mod]

theorem digitTotal_add (index m n : Nat) :
    digitTotal index (m + n) = digitTotal index m + digitTotal (index + 3 * m) n := by
  rw [digitTotal, List.range_add, List.map_append, List.sum_append, List.map_map, digitTotal,
    digitTotal]
  simp only [Function.comp_def, Nat.mul_add, Nat.add_assoc]

/-- Ten digits in a row are the ten digits in some order. -/
theorem digitTotal_ten (index : Nat) : digitTotal index 10 = 45 := by
  have hdigits : ∀ i < 10, digitTotal i 10 = 45 := by decide
  rw [← digitTotal_mod_ten]
  exact hdigits _ (Nat.mod_lt _ (by decide))

theorem digitTotal_add_tens (index n k : Nat) :
    digitTotal index (n + 10 * k) = digitTotal index n + 45 * k := by
  induction k with
  | zero => rfl
  | succ k ih => rw [Nat.mul_succ, ← Nat.add_assoc, digitTotal_add, ih, digitTotal_ten]; omega

theorem digitTotal_mod_eighty (index n : Nat) :
    digitTotal index n % 80 = digitTotal (index % 10) (n % 160) % 80 := by
  have hn : n = n % 160 + 10 * (16 * (n / 160)) := by omega
  rw [digitTotal_mod_ten]
  conv => lhs; rw [hn, digitTotal_add_tens]
  omega

/-- The digits before the last byte added up, if the last of them is reached without wrapping
around. -/
theorem digitSum_pattern (h : index + 3 * (length - 2) < 2 ^ 64) :
    digitSum (pattern index length) = digitTotal index (length - 1) := by
  rw [digitSum_eq_sum, pattern, List.map_map, digitTotal, Nat.cast_list_sum,
    List.map_map]
  refine congrArg List.sum (List.map_congr_left fun j hj => ?_)
  have hlast := List.mem_range.1 hj
  dsimp only [Function.comp_apply]
  rw [toNat_digit, sizeSum_of_lt (by rw [UInt64.size]; omega)]
  omega

/-! ## The last byte -/

theorem balanceByte_eq_delete_iff (r : Bytes) :
    balanceByte r = 0x7f ↔ digitSum r % 80 = 1 := by
  rw [← UInt8.toNat_inj, (toNat_balanceByte r).1, checksumModulus]
  simp only [UInt8.reduceToNat]
  omega

theorem printable_balanceByte_iff (r : Bytes) :
    Printable (balanceByte r) ↔ digitSum r % 80 ≠ 1 := by
  rw [Printable, (toNat_balanceByte r).1, checksumModulus]
  omega

/-- The last digit of the index and the length modulo one hundred and sixty of the sample records
whose last byte is the delete character. -/
def deletions : List (Nat × Nat) :=
  [(1, 2), (1, 127), (2, 20), (2, 55), (4, 19), (4, 108), (4, 143), (4, 144), (6, 72), (6, 107),
    (7, 55), (7, 90), (9, 18), (9, 19), (9, 54), (9, 143)]

theorem digitTotal_eq_one_iff (index length : Nat) :
    digitTotal index (length - 1) % 80 = 1 ↔ (index % 10, length % 160) ∈ deletions := by
  rw [digitTotal_mod_eighty]
  constructor
  · intro htotal
    have htable : ∀ i < 10, ∀ n < 160, (digitTotal i (n % 10) + 45 * (n / 10)) % 80 ≠ 1
        ∨ (i, (n + 1) % 160) ∈ deletions := by decide +kernel
    have hlength : length ≠ 0 := by
      rintro rfl
      cases htotal
    have hn : (length - 1) % 160 % 10 + 10 * ((length - 1) % 160 / 10) = (length - 1) % 160 := by
      omega
    have hmod : ((length - 1) % 160 + 1) % 160 = length % 160 := by omega
    rw [← hn, digitTotal_add_tens] at htotal
    rw [← hmod]
    exact (htable _ (Nat.mod_lt _ (by decide)) _ (Nat.mod_lt _ (by decide))).resolve_left
      fun hne => hne htotal
  · intro hmem
    have htable : ∀ p ∈ deletions, 0 < p.2 ∧ digitTotal p.1 (p.2 - 1) % 80 = 1 := by decide +kernel
    obtain ⟨hpos, htotal⟩ := htable _ hmem
    have hmod : (length - 1) % 160 = length % 160 - 1 := by omega
    rw [hmod, htotal]

theorem digitSum_pattern_eq_one_iff (h : index + 3 * (length - 2) < 2 ^ 64) :
    digitSum (pattern index length) % 80 = 1 ↔ (index % 10, length % 160) ∈ deletions := by
  rw [digitSum_pattern h, ← digitTotal_eq_one_iff]
  omega

theorem isDigit_of_mem_pattern (h : b ∈ pattern index length) :
    0x30 ≤ b.toNat ∧ b.toNat ≤ 0x39 := by
  obtain ⟨j, -, rfl⟩ := List.mem_map.1 h
  rw [toNat_digit]
  omega

theorem printable_of_mem_pattern (h : b ∈ pattern index length) : Printable b := by
  have hdigit := isDigit_of_mem_pattern h
  exact ⟨by omega, by omega⟩

/-- All bytes of a sample record but the last are digits. The last one is printable unless the
digits add up to one modulo eighty: then it is the delete character. Unless the numbers whose digits
they are wrap around, this depends on the last digit of the index and on the length modulo one
hundred and sixty. Escaped text shows a record as it is if it is printable and has no backslash, and
else it has an escape. -/
theorem sample_records_as_text (index length : Nat) :
    (∀ b ∈ (checksumRecord index length).dropLast, 0x30 ≤ b.toNat ∧ b.toNat ≤ 0x39)
    ∧ (index + 3 * (length - 2) < 2 ^ 64 →
      (digitSum (checksumRecord index length).dropLast % 80 = 1
        ↔ (index % 10, length % 160) ∈ deletions))
    ∧ ((∀ b ∈ checksumRecord index length, Printable b)
      ↔ digitSum (checksumRecord index length).dropLast % 80 ≠ 1)
    ∧ ((checksumRecord index length).getLast? = some 0x7f
      ↔ digitSum (checksumRecord index length).dropLast % 80 = 1)
    ∧ ('\\' ∈ (Text.escapeBytes true (checksumRecord index length)).toList
      ↔ digitSum (checksumRecord index length).dropLast % 80 = 1
        ∨ 0x5c ∈ checksumRecord index length)
    ∧ ('\\' ∉ (Text.escapeBytes true (checksumRecord index length)).toList →
      (Text.escapeBytes true (checksumRecord index length)).toList
        = (checksumRecord index length).map Text.ofAscii) := by
  have hbody : (checksumRecord index length).dropLast = pattern index length := by
    rw [checksumRecord_eq, List.dropLast_concat]
  rw [hbody]
  have hprintable : (∀ b ∈ checksumRecord index length, Printable b)
      ↔ digitSum (pattern index length) % 80 ≠ 1 := by
    rw [← printable_balanceByte_iff, checksumRecord_eq]
    refine ⟨fun h => h _ List.mem_concat_self, fun hlast b hb => ?_⟩
    rcases List.mem_append.1 hb with hb | hb
    · exact printable_of_mem_pattern hb
    · rw [List.mem_singleton.1 hb]; exact hlast
  have hescape : '\\' ∈ (Text.escapeBytes true (checksumRecord index length)).toList
      ↔ digitSum (pattern index length) % 80 = 1 ∨ 0x5c ∈ checksumRecord index length := by
    rw [Compare.Token.backslash_mem_escapeBytes_iff, hprintable]
    tauto
  refine ⟨fun b => isDigit_of_mem_pattern, digitSum_pattern_eq_one_iff, hprintable, ?_, hescape,
    fun h => ?_⟩
  · rw [checksumRecord_eq, List.getLast?_concat, Option.some.injEq, balanceByte_eq_delete_iff]
  · rw [hescape, not_or] at h
    exact Compare.Token.toList_escapeBytes_of_printable (hprintable.2 h.1) h.2

/-- A record that is shown as it is, and a longer one whose last byte is the delete character. -/
theorem sample_records_as_text_shown :
    '\\' ∉ (Text.escapeBytes true (checksumRecord 5 3)).toList
      ∧ (Text.escapeBytes true (checksumRecord 5 3)).toList = ['5', '8', 's']
      ∧ 14 + 3 * (304 - 2) < 2 ^ 64 ∧ (checksumRecord 14 304).getLast? = some 0x7f := by
  have hplain : '\\' ∉ (Text.escapeBytes true (checksumRecord 5 3)).toList := by decide +kernel
  refine ⟨hplain, ?_, by decide, ?_⟩
  · rw [(sample_records_as_text 5 3).2.2.2.2.2 hplain]
    decide +kernel
  · obtain ⟨-, htable, -, hlast, -⟩ := sample_records_as_text 14 304
    exact hlast.2 ((htable (by decide)).2 (by decide))

/-- The last byte of a sample record can be the delete character, and is then escaped although the
record has no backslash. -/
theorem sample_record_not_printable :
    checksumRecord 1 2 = [0x31, 0x7f] ∧ ¬(∀ b ∈ checksumRecord 1 2, Printable b)
      ∧ 0x5c ∉ checksumRecord 1 2
      ∧ Text.escapeBytes true (checksumRecord 1 2) = "1\\x7F" := by
  decide +kernel

end Sample

end TiBench
