import TiBench.Timestamp
import TiBench.Proofs.Bytes
import Mathlib.Algebra.Group.Even
import Mathlib.Algebra.Ring.Int.Parity

/-!
# Timestamps on disk

A timestamp is read again as it was, but for an odd second and for the century, which is the one
from 1970 on. What was read is written as it was, but for a year field beyond the century.
-/

namespace TiBench.Timestamp

variable {t u : Timestamp} {b : Block 4} {year : Int} {month : Nat}

theorem Valid.month_bounds (h : t.Valid) : t.month ≤ 12 ∧ 1 ≤ t.day ∧ t.day ≤ 31 := by
  obtain ⟨hfirst, hlast, -⟩ := h
  rw [daysInMonth] at hlast
  split at hlast
  · split at hlast <;> omega
  · split at hlast
    · omega
    · split at hlast <;> omega

/-! ## Years -/

/-- The year from 1970 to 2069 that has the same place in its century. -/
def nearYear (year : Int) : Int := fullYear (year % 100).toNat

theorem nearYear_bounds (year : Int) : 1970 ≤ nearYear year ∧ nearYear year ≤ 2069
    ∧ nearYear year % 100 = year % 100 := by
  rw [nearYear, fullYear]
  split <;> omega

theorem nearYear_eq_self (h : 1970 ≤ year ∧ year ≤ 2069) : nearYear year = year := by
  obtain ⟨hfirst, hlast, hmod⟩ := nearYear_bounds year
  omega

/-- The year 2000 is a leap year, so that none is lost when the century changes. -/
theorem isLeapYear_nearYear (h : isLeapYear year = true) : isLeapYear (nearYear year) = true := by
  simp only [isLeapYear, Bool.and_eq_true, Bool.or_eq_true, beq_iff_eq, bne_iff_ne] at h ⊢
  rw [nearYear, fullYear]
  split <;> omega

theorem daysInMonth_le_nearYear (year : Int) (month : Nat) :
    daysInMonth year month ≤ daysInMonth (nearYear year) month := by
  by_cases hfebruary : month = 2
  · rw [daysInMonth, daysInMonth, if_pos hfebruary, if_pos hfebruary]
    split
    · rename_i hleap
      rw [if_pos (isLeapYear_nearYear hleap)]
    · split <;> omega
  · rw [daysInMonth, daysInMonth, if_neg hfebruary, if_neg hfebruary]

/-! ## What is read of what was written -/

/-- The timestamp as a disk keeps it, with the even second at or before its own. -/
def rounded (t : Timestamp) : Timestamp := { t with second := t.second / 2 * 2 }

/-- The timestamp as a disk keeps it, in the century from 1970 on. -/
def kept (t : Timestamp) : Timestamp :=
  { t with year := nearYear t.year, second := t.second / 2 * 2 }

theorem Valid.kept (h : t.Valid) : t.kept.Valid := by
  obtain ⟨hfirst, hlast, hhour, hminute, hsecond⟩ := h
  exact ⟨hfirst, Nat.le_trans hlast (daysInMonth_le_nearYear t.year t.month), hhour, hminute,
    Nat.lt_of_le_of_lt (Nat.div_mul_le_self t.second 2) hsecond⟩

theorem kept_of_near (h : 1970 ≤ t.year ∧ t.year ≤ 2069) : t.kept = t.rounded := by
  rw [Timestamp.kept, nearYear_eq_self h]
  rfl

theorem rounded_of_even (h : Even t.second) : t.rounded = t := by
  rw [rounded, Nat.div_mul_cancel h.two_dvd]

theorem drop_pack (t : Timestamp) : t.pack.bytes.drop 0
    = Bytes.ofWordBE (UInt16.ofNat (t.hour * 2048 + t.minute * 32 + t.second / 2))
      ++ (Bytes.ofWordBE (UInt16.ofInt (t.year.tmod 100 * 512 + t.month * 32 + t.day)) ++ []) :=
  rfl

theorem toNat_wordBE_pack (h : t.Valid) (hyear : 0 ≤ t.year) :
    (t.pack.wordBE 0).toNat = t.hour * 2048 + t.minute * 32 + t.second / 2
      ∧ (t.pack.wordBE 2).toNat = (t.year % 100).toNat * 512 + t.month * 32 + t.day := by
  obtain ⟨hmonth, -, hday⟩ := h.month_bounds
  obtain ⟨-, -, hhour, hminute, hsecond⟩ := h
  have hdate : UInt16.ofInt (t.year.tmod 100 * 512 + t.month * 32 + t.day)
      = UInt16.ofNat ((t.year % 100).toNat * 512 + t.month * 32 + t.day) := by
    rw [Int.tmod_eq_emod_of_nonneg hyear, ← Bytes.ofInt_natCast]
    congr 1
    omega
  have hdrop := t.drop_pack
  rw [hdate] at hdrop
  constructor
  · rw [Block.wordBE_of_drop hdrop]
    exact UInt16.toNat_ofNat_of_lt' (by simp only [UInt16.size]; omega)
  · rw [Block.wordBE_of_drop (Bytes.drop_part hdrop (n := 2) rfl)]
    exact UInt16.toNat_ofNat_of_lt' (by simp only [UInt16.size]; omega)

theorem unpack_pack_kept (h : t.Valid) (hyear : 0 ≤ t.year) : unpack t.pack = some t.kept := by
  obtain ⟨htime, hdate⟩ := toNat_wordBE_pack h hyear
  obtain ⟨hmonth, hfirst, hday⟩ := h.month_bounds
  obtain ⟨hhour, hminute, hsecond⟩ := h.2.2
  generalize hyy : (t.year % 100).toNat = yy at hdate
  rw [unpack, htime, hdate, if_neg (by omega)]
  have hfields : Timestamp.mk (fullYear ((yy * 512 + t.month * 32 + t.day) / 512))
      ((yy * 512 + t.month * 32 + t.day) / 32 % 16) ((yy * 512 + t.month * 32 + t.day) % 32)
      ((t.hour * 2048 + t.minute * 32 + t.second / 2) / 2048)
      ((t.hour * 2048 + t.minute * 32 + t.second / 2) / 32 % 64)
      (2 * ((t.hour * 2048 + t.minute * 32 + t.second / 2) % 32)) = t.kept := by
    rw [Timestamp.kept, nearYear, hyy,
      show (yy * 512 + t.month * 32 + t.day) / 512 = yy by omega]
    congr 1 <;> omega
  rw [hfields]
  exact if_pos h.kept

theorem unpack_pack (h : t.Valid) (hyear : 1970 ≤ t.year ∧ t.year ≤ 2069) :
    unpack t.pack = some t.rounded := by
  rw [unpack_pack_kept h (by omega), kept_of_near hyear]

/-! ## What is written of what was read -/

/-- The seven bits of the year. -/
def yearField (b : Block 4) : Nat := (b.wordBE 2).toNat / 512

theorem yearField_lt (b : Block 4) : yearField b < 128 := by
  have hword := (b.wordBE 2).toNat_lt
  rw [yearField]
  omega

/-- The four bytes with another year in its seven bits. -/
def withYear (b : Block 4) (yy : Nat) : Block 4 :=
  ⟨Bytes.ofWordBE (b.wordBE 0)
    ++ Bytes.ofWordBE (UInt16.ofNat (yy * 512 + (b.wordBE 2).toNat % 512)), rfl⟩

theorem withYear_yearField (b : Block 4) : withYear b (yearField b) = b := by
  have hdate : UInt16.ofNat (yearField b * 512 + (b.wordBE 2).toNat % 512) = b.wordBE 2 := by
    rw [yearField, Nat.div_add_mod', UInt16.ofNat_toNat]
  have hbytes := b.drop_eq_wordBE 0 (by decide)
  rw [b.drop_eq_wordBE 2 (by decide), b.drop_eq_nil 4 (by decide), List.append_nil,
    List.drop_zero] at hbytes
  apply Block.ext
  rw [hbytes]
  exact congrArg (fun w => Bytes.ofWordBE (b.wordBE 0) ++ Bytes.ofWordBE w) hdate

/-- The date and the time of four bytes, whether or not there is such a day and such a time. -/
def fields (b : Block 4) : Timestamp :=
  { year := fullYear (yearField b), month := (b.wordBE 2).toNat / 32 % 16,
    day := (b.wordBE 2).toNat % 32, hour := (b.wordBE 0).toNat / 2048,
    minute := (b.wordBE 0).toNat / 32 % 64, second := 2 * ((b.wordBE 0).toNat % 32) }

theorem unpack_eq_some (h : unpack b = some u) : u = fields b := by
  rw [unpack] at h
  split at h
  · cases h
  · rw [check?] at h
    split at h
    · exact (Option.some.inj h).symm
    · cases h

theorem tmod_fullYear {yy : Nat} (h : yy < 128) : (fullYear yy).tmod 100 = (yy % 100 : Nat) := by
  rw [fullYear]
  split
  · rw [Int.tmod_eq_emod_of_nonneg (by omega)]; omega
  · rw [Int.tmod_eq_emod_of_nonneg (by omega)]; omega

theorem pack_fields (b : Block 4) : (fields b).pack = withYear b (yearField b % 100) := by
  have htime : (b.wordBE 0).toNat / 2048 * 2048 + (b.wordBE 0).toNat / 32 % 64 * 32
      + 2 * ((b.wordBE 0).toNat % 32) / 2 = (b.wordBE 0).toNat := by omega
  have hdate : ((yearField b % 100 : Nat) : Int) * 512 + ((b.wordBE 2).toNat / 32 % 16 : Nat) * 32
      + ((b.wordBE 2).toNat % 32 : Nat)
      = (yearField b % 100 * 512 + (b.wordBE 2).toNat % 512 : Nat) := by omega
  apply Block.ext
  simp only [pack, fields, withYear, htime, tmod_fullYear (yearField_lt b), hdate,
    UInt16.ofNat_toNat, Bytes.ofInt_natCast]

/-- A timestamp of the years from zero on is read again with the same day and time, its second
rounded down to an even one and its year that of the same number in the century from 1970 on. Four
bytes that are a timestamp are written again, their year field reduced by a hundred if it is not
below that. -/
theorem four_bytes_roundtrip :
    (∀ t : Timestamp, t.Valid → 0 ≤ t.year → ∃ u, unpack t.pack = some u ∧ u.Valid
      ∧ u.month = t.month ∧ u.day = t.day ∧ u.hour = t.hour ∧ u.minute = t.minute
      ∧ u.second = t.second - t.second % 2
      ∧ 1970 ≤ u.year ∧ u.year ≤ 2069 ∧ u.year % 100 = t.year % 100
      ∧ (1970 ≤ t.year → t.year ≤ 2069 → Even t.second → u = t))
    ∧ ∀ (b : Block 4) (u : Timestamp), unpack b = some u →
      (yearField b < 100 → u.pack = b)
      ∧ (100 ≤ yearField b → u.pack = withYear b (yearField b - 100)) := by
  constructor
  · intro t h hyear
    obtain ⟨hfirst, hlast, hmod⟩ := nearYear_bounds t.year
    refine ⟨t.kept, unpack_pack_kept h hyear, h.kept, rfl, rfl, rfl, rfl, ?_, hfirst, hlast, hmod,
      fun hold hnew heven => ?_⟩
    · show t.second / 2 * 2 = t.second - t.second % 2
      omega
    · rw [kept_of_near ⟨hold, hnew⟩, rounded_of_even heven]
  · intro b u h
    have hlt := yearField_lt b
    rw [unpack_eq_some h, pack_fields]
    constructor
    · intro hbelow
      rw [Nat.mod_eq_of_lt hbelow, withYear_yearField]
    · intro habove
      rw [Nat.mod_eq_sub_mod habove, Nat.mod_eq_of_lt (by omega)]

/-- The last second of a leap day, and a leap day whose year field is above a hundred. -/
theorem four_bytes_roundtrip_leap_day :
    unpack (pack ⟨1600, 2, 29, 23, 59, 59⟩) = some ⟨2000, 2, 29, 23, 59, 58⟩
      ∧ unpack ⟨[0, 1, 0xd0, 0x5d], rfl⟩ = some ⟨2004, 2, 29, 0, 0, 2⟩
      ∧ pack ⟨2004, 2, 29, 0, 0, 2⟩ = ⟨[0, 1, 0x08, 0x5d], rfl⟩ := by
  obtain ⟨u, hu, -⟩ := four_bytes_roundtrip.1 ⟨1600, 2, 29, 23, 59, 59⟩ (by decide) (by decide)
  have hread : unpack ⟨[0, 1, 0xd0, 0x5d], rfl⟩ = some ⟨2004, 2, 29, 0, 0, 2⟩ := by decide +kernel
  have hwritten := (four_bytes_roundtrip.2 _ _ hread).2 (by decide)
  exact ⟨by decide +kernel, hread, hwritten.trans (by decide +kernel)⟩

end TiBench.Timestamp
