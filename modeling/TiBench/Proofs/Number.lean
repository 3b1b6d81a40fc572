import TiBench.Text.Number
import TiBench.Text.Blank
import TiBench.Text.CharClass
import TiBench.Proofs.Text
import Mathlib.Data.List.Forall2
import Mathlib.Data.Nat.Digits.Defs

/-!
# Laws of numbers in text

A number that is written in decimal, with zeros before it or without, reads as itself, and so does
a hexadecimal digit.
-/

namespace TiBench.Text

variable {c : Char} {s : List Char} {base bound d n : Nat}

theorem digit?_of_isDigit (h : c.isDigit = true) : digit? 10 c = some (c.toNat - '0'.toNat) := by
  simp only [Char.isDigit, Bool.and_eq_true, decide_eq_true_eq] at h
  have hvalue : c.toNat - '0'.toNat < 10 := by
    have hle : c.toNat ≤ 57 := h.2
    have hzero : '0'.toNat = 48 := rfl
    omega
  have hrange : '0' ≤ c ∧ c ≤ '9' := h
  simp only [digit?, if_pos hrange, Option.filter_some, hvalue, decide_true, if_true]

theorem digits?_of_isDigit (h : ∀ c ∈ s, c.isDigit = true) :
    digits? 10 s = some (Nat.ofDigitChars 10 s 0) := by
  have hfold (n : Nat) : s.foldl (fun n c => n.bind fun n => (digit? 10 c).map fun d => n * 10 + d)
      (some n) = some (Nat.ofDigitChars 10 s n) := by
    induction s generalizing n with
    | nil => rfl
    | cons c s ih =>
        simp only [List.foldl_cons, Option.bind_some, digit?_of_isDigit (h c List.mem_cons_self),
          Option.map_some, Nat.ofDigitChars_cons]
        rw [ih fun d hd => h d (List.mem_cons_of_mem _ hd), Nat.mul_comm]
  exact hfold 0

theorem number?_of_isDigit {bound : Nat} (hne : s ≠ []) (h : ∀ c ∈ s, c.isDigit = true)
    (hlt : Nat.ofDigitChars 10 s 0 < bound) :
    number? 10 bound s = some (Nat.ofDigitChars 10 s 0) := by
  have hsign : ∀ rest, s = '+' :: rest → False := by
    rintro rest rfl
    exact absurd (h _ List.mem_cons_self) (by decide)
  unfold number?
  split
  · exact (hsign _ rfl).elim
  · simp only [List.isEmpty_eq_false_iff.2 hne, Bool.false_eq_true, if_false, digits?_of_isDigit h,
      Option.filter_some, hlt, decide_true, if_true]

/-! ## Digits -/

/-- The character is a digit of the base, a letter in either case, and stands for the number. -/
def DigitOf (base : Nat) (c : Char) (d : Nat) : Prop := d < base ∧ c.toLower = Nat.digitChar d

theorem lt_of_digitOf (h : DigitOf 16 c d) : c.toNat < 128 := by
  obtain ⟨hd, hc⟩ := h
  have hdigit : ∀ d < 16, (Nat.digitChar d).toNat < 128 := by decide
  by_contra hlarge
  have hlower : c.toLower = c := by
    refine dif_neg ?_
    rintro ⟨-, hupper⟩
    have hle : c.toNat ≤ 90 := hupper
    omega
  exact hlarge (hlower ▸ hc ▸ hdigit d hd)

theorem digit?_of_large (hlarge : 128 ≤ c.toNat) : digit? base c = none := by
  have hbound {b : Char} (hb : b.toNat < 128) : ¬c ≤ b := fun hle =>
    Nat.not_le.2 hb (Nat.le_trans hlarge hle)
  simp [digit?, hbound (b := '9') (by decide), hbound (b := 'f') (by decide),
    hbound (b := 'F') (by decide)]

theorem digit?_sixteen_iff : digit? 16 c = some d ↔ DigitOf 16 c d := by
  by_cases hsmall : c.toNat < 128
  · have htable : ∀ k < 128, ∀ d < 16,
        digit? 16 (Char.ofNat k) = some d ↔ (Char.ofNat k).toLower = Nat.digitChar d := by
      decide +kernel
    have hdigit := htable c.toNat hsmall d
    rw [Char.ofNat_toNat] at hdigit
    constructor
    · intro h
      have hd : d < 16 := by
        rw [digit?] at h
        exact of_decide_eq_true (Option.filter_eq_some_iff.1 h).2
      exact ⟨hd, (hdigit hd).1 h⟩
    · exact fun h => (hdigit h.1).2 h.2
  · rw [digit?_of_large (Nat.not_lt.1 hsmall)]
    exact ⟨nofun, fun h => absurd (lt_of_digitOf h) hsmall⟩

theorem digit?_eq_some_iff (hbase : base ≤ 16) : digit? base c = some d ↔ DigitOf base c d := by
  have hfilter : digit? base c = some d ↔ digit? 16 c = some d ∧ d < base := by
    simp only [digit?, Option.filter_eq_some_iff, decide_eq_true_eq]
    constructor
    · exact fun ⟨hvalue, hd⟩ => ⟨⟨hvalue, Nat.lt_of_lt_of_le hd hbase⟩, hd⟩
    · exact fun ⟨⟨hvalue, _⟩, hd⟩ => ⟨hvalue, hd⟩
  rw [hfilter, digit?_sixteen_iff, DigitOf, DigitOf]
  constructor
  · exact fun ⟨⟨_, hc⟩, hd⟩ => ⟨hd, hc⟩
  · exact fun ⟨hd, hc⟩ => ⟨⟨Nat.lt_of_lt_of_le hd hbase, hc⟩, hd⟩

/-- The digits of the bases up to sixteen. -/
def digitLetters : List Char := "0123456789abcdefABCDEF".toList

theorem mem_digitLetters (h : DigitOf 16 c d) : c ∈ digitLetters := by
  have htable : ∀ k < 128, digit? 16 (Char.ofNat k) = none ∨ Char.ofNat k ∈ digitLetters := by
    decide +kernel
  have hsmall := lt_of_digitOf h
  have hdigit := digit?_sixteen_iff.2 h
  rcases Char.ofNat_toNat c ▸ htable c.toNat hsmall with hnone | hmem
  · rw [hnone] at hdigit
    cases hdigit
  · exact hmem

/-- The upper case digit of a number below sixteen. -/
def hexDigit (n : Nat) : Char := (Nat.digitChar n).toUpper

theorem digit?_hexDigit : ∀ n < 16, digit? 16 (hexDigit n) = some n := by decide

/-- A hexadecimal digit is that of its value, in one case or the other. -/
theorem of_digit?_eq_some {n : Nat} (h : digit? 16 c = some n) :
    n < 16 ∧ c.toLower = (hexDigit n).toLower := by
  obtain ⟨hn, hc⟩ := digit?_sixteen_iff.1 h
  have hlower : ∀ n < 16, (hexDigit n).toLower = Nat.digitChar n := by decide
  exact ⟨hn, hc.trans (hlower n hn).symm⟩

theorem toList_hex_two {n : Nat} (h : n < 256) :
    (hex 2 n).toList = [hexDigit (n / 16), hexDigit (n % 16)] := by
  rw [hex, String.toList_ofList]
  by_cases hn : n < 16
  · rw [Nat.toDigits_of_lt_base hn, Nat.div_eq_of_lt hn, Nat.mod_eq_of_lt hn]
    rfl
  · rw [Nat.toDigits_of_base_le (by decide) (Nat.not_lt.1 hn),
      Nat.toDigits_of_lt_base (Nat.div_lt_of_lt_mul h)]
    rfl

/-! ## Texts that are numbers -/

/-- At least one digit of the base, and the number that they write. -/
def Digits (base : Nat) (s : List Char) (n : Nat) : Prop :=
  s ≠ [] ∧ ∃ ds, List.Forall₂ (DigitOf base) s ds ∧ n = Nat.ofDigits base ds.reverse

/-- Digits, perhaps after a plus sign. -/
def Numeral (base : Nat) (s : List Char) (n : Nat) : Prop :=
  Digits base s n ∨ ∃ rest, s = '+' :: rest ∧ Digits base rest n

/-- The digits of a number take it further, one after the other. -/
theorem foldl_digit?_eq_some_iff (hbase : base ≤ 16) {k : Nat} :
    s.foldl (fun n c => n.bind fun n => (digit? base c).map fun d => n * base + d) (some k) = some n
      ↔ ∃ ds, List.Forall₂ (DigitOf base) s ds ∧ n = ds.foldl (fun n d => n * base + d) k := by
  induction s generalizing k with
  | nil =>
      constructor
      · exact fun h => ⟨[], .nil, (Option.some.inj h).symm⟩
      · rintro ⟨_, hds, rfl⟩
        cases hds
        rfl
  | cons c s ih =>
      rw [List.foldl_cons, Option.bind_some]
      cases hc : digit? base c with
      | none =>
          have hnone : s.foldl
              (fun n c => n.bind fun n => (digit? base c).map fun d => n * base + d) none = none :=
            List.foldl_fixed' (fun _ => rfl) s
          rw [Option.map_none, hnone]
          refine ⟨nofun, ?_⟩
          rintro ⟨_, hds, -⟩
          cases hds with
          | cons hd _ =>
              rw [(digit?_eq_some_iff hbase).2 hd] at hc
              cases hc
      | some d =>
          rw [Option.map_some, ih]
          constructor
          · rintro ⟨ds, hds, rfl⟩
            exact ⟨d :: ds, .cons ((digit?_eq_some_iff hbase).1 hc) hds, rfl⟩
          · rintro ⟨_, hds, rfl⟩
            cases hds with
            | cons hd hds =>
                rw [(digit?_eq_some_iff hbase).2 hd] at hc
                obtain rfl := Option.some.inj hc
                exact ⟨_, hds, rfl⟩

theorem digits?_eq_some_iff (hbase : base ≤ 16) : digits? base s = some n
    ↔ ∃ ds, List.Forall₂ (DigitOf base) s ds ∧ n = Nat.ofDigits base ds.reverse := by
  have hvalue (ds : List Nat) :
      ds.foldl (fun n d => n * base + d) 0 = Nat.ofDigits base ds.reverse := by
    rw [Nat.ofDigits_eq_foldr, List.foldr_reverse]
    simp only [Nat.cast_id, Nat.add_comm, Nat.mul_comm]
  simp only [digits?, foldl_digit?_eq_some_iff hbase, hvalue]

theorem mem_digitLetters_of_mem (h : Digits base s n) (hbase : base ≤ 16) (hc : c ∈ s) :
    c ∈ digitLetters := by
  obtain ⟨-, ds, hds, -⟩ := h
  induction hds with
  | nil => cases hc
  | cons hd _ ih =>
      rcases List.mem_cons.1 hc with rfl | hc
      · exact mem_digitLetters ⟨Nat.lt_of_lt_of_le hd.1 hbase, hd.2⟩
      · exact ih hc

theorem mem_of_mem_numeral (h : Numeral base s n) (hbase : base ≤ 16) (hc : c ∈ s) :
    c ∈ '+' :: digitLetters := by
  rcases h with h | ⟨rest, rfl, h⟩
  · exact List.mem_cons_of_mem _ (mem_digitLetters_of_mem h hbase hc)
  · rcases List.mem_cons.1 hc with rfl | hc
    · exact List.mem_cons_self
    · exact List.mem_cons_of_mem _ (mem_digitLetters_of_mem h hbase hc)

/-- No character of a number is white space, a separator or the mark of another base. -/
theorem plain_of_mem_numeral (h : Numeral base s n) (hbase : base ≤ 16) (hc : c ∈ s) :
    isBlank c = false ∧ c ∉ [':', ',', '/', 'x', 'X'] := by
  have hplain : ('+' :: digitLetters).all
      (fun c => isBlank c = false ∧ c ∉ [':', ',', '/', 'x', 'X']) = true := by decide
  exact of_decide_eq_true (List.all_eq_true.1 hplain c (mem_of_mem_numeral h hbase hc))

theorem lt_of_mem_numeral (h : Numeral base s n) (hbase : base ≤ 16) (hc : c ∈ s) :
    c.toNat < 128 := by
  have hsmall : ('+' :: digitLetters).all (fun c => c.toNat < 128) = true := by decide
  exact of_decide_eq_true (List.all_eq_true.1 hsmall c (mem_of_mem_numeral h hbase hc))

theorem trim_numeral (h : Numeral base s n) (hbase : base ≤ 16) : trim s = s :=
  trim_of_forall fun _ hc => (plain_of_mem_numeral h hbase hc).1

/-- Exactly the texts of digits with or without a plus sign are read as numbers. -/
theorem number?_eq_some_iff (hbase : base ≤ 16) :
    number? base bound s = some n ↔ Numeral base s n ∧ n < bound := by
  have hbody (body : List Char) : (if body.isEmpty then none
      else (digits? base body).filter (· < bound)) = some n ↔ Digits base body n ∧ n < bound := by
    cases body with
    | nil => simp [Digits]
    | cons c body =>
        rw [if_neg (by simp), Option.filter_eq_some_iff, digits?_eq_some_iff hbase, Digits,
          decide_eq_true_iff]
        simp
  have hplus {rest : List Char} : ¬Digits base ('+' :: rest) n := fun h =>
    absurd (mem_digitLetters_of_mem h hbase List.mem_cons_self) (by decide)
  unfold number?
  split
  · rename_i rest
    rw [hbody, Numeral]
    simp [hplus]
  · rename_i hsign
    rw [hbody, Numeral]
    have hnone : ¬∃ rest, s = '+' :: rest ∧ Digits base rest n := fun ⟨rest, hs, _⟩ =>
      hsign rest hs
    rw [or_iff_left hnone]

/-! ## Hexadecimal digits -/

/-- The upper case digits of a number. -/
def hexDigits (n : Nat) : List Char := (Nat.toDigits 16 n).map Char.toUpper

theorem hexDigits_of_lt (h : n < 16) : hexDigits n = [hexDigit n] := by
  rw [hexDigits, Nat.toDigits_of_lt_base h]
  rfl

theorem hexDigits_of_le (h : 16 ≤ n) : hexDigits n = hexDigits (n / 16) ++ [hexDigit (n % 16)] := by
  rw [hexDigits, Nat.toDigits_of_base_le (by decide) h, List.map_append]
  rfl

theorem toList_hex (width n : Nat) : (hex width n).toList
    = List.replicate (width - (hexDigits n).length) '0' ++ hexDigits n := String.toList_ofList

theorem digits?_concat (base : Nat) (s : List Char) (c : Char) : digits? base (s ++ [c])
    = (digits? base s).bind fun n => (digit? base c).map fun d => n * base + d := by
  rw [digits?, List.foldl_append]
  rfl

theorem digits?_hexDigits (n : Nat) : digits? 16 (hexDigits n) = some n := by
  induction n using Nat.strongRecOn with
  | ind n ih =>
      by_cases hn : n < 16
      · have hdigit := digit?_hexDigit n hn
        rw [hexDigits_of_lt hn, ← List.nil_append [_], digits?_concat, hdigit]
        exact congrArg some (Nat.zero_add n)
      · have hdigit := digit?_hexDigit (n % 16) (Nat.mod_lt n (by decide))
        rw [hexDigits_of_le (Nat.not_lt.1 hn), digits?_concat, ih _ (by omega), hdigit]
        exact congrArg some (Nat.div_add_mod' n 16)

theorem digits?_replicate_append (k : Nat) (s : List Char) :
    digits? 16 (List.replicate k '0' ++ s) = digits? 16 s := by
  induction k with
  | zero => rfl
  | succ k ih =>
      rw [← ih]
      rfl

/-- A number is read from its hexadecimal digits. -/
theorem digits_hex (width n : Nat) : Digits 16 (hex width n).toList n := by
  have hread : digits? 16 (hex width n).toList = some n := by
    rw [toList_hex, digits?_replicate_append, digits?_hexDigits]
  refine ⟨fun hnil => ?_, (digits?_eq_some_iff (by decide)).1 hread⟩
  rw [toList_hex, List.append_eq_nil_iff, hexDigits, List.map_eq_nil_iff] at hnil
  exact Nat.toDigits_ne_nil hnil.2

theorem exists_hexDigit_of_mem_hexDigits (h : c ∈ hexDigits n) : ∃ d < 16, c = hexDigit d := by
  induction n using Nat.strongRecOn with
  | ind n ih =>
      by_cases hn : n < 16
      · rw [hexDigits_of_lt hn, List.mem_singleton] at h
        exact ⟨n, hn, h⟩
      · rw [hexDigits_of_le (Nat.not_lt.1 hn), List.mem_append, List.mem_singleton] at h
        rcases h with h | h
        · exact ih _ (by omega) h
        · exact ⟨_, Nat.mod_lt n (by decide), h⟩

theorem exists_hexDigit_of_mem_hex {width : Nat} (h : c ∈ (hex width n).toList) :
    ∃ d < 16, c = hexDigit d := by
  rw [toList_hex, List.mem_append] at h
  rcases h with h | h
  · exact ⟨0, by decide, (List.mem_replicate.1 h).2⟩
  · exact exists_hexDigit_of_mem_hexDigits h

theorem le_length_hex (width n : Nat) : width ≤ (hex width n).toList.length := by
  rw [toList_hex, List.length_append, List.length_replicate]
  omega

/-! ## Numbers that were written -/

/-- The digits of a number after zeros. -/
def paddedDigits (zeros n : Nat) : List Char := List.replicate zeros '0' ++ Nat.toDigits 10 n

theorem toList_zeroPadded (width n : Nat) : (zeroPadded width n).toList
    = paddedDigits (width - (Nat.toDigits 10 n).length) n := String.toList_ofList

theorem toList_toString (n : Nat) : (toString n).toList = paddedDigits 0 n := by
  rw [Nat.toString_eq_repr, Nat.toList_repr]; rfl

theorem isDigit_of_mem_paddedDigits {zeros n : Nat} (h : c ∈ paddedDigits zeros n) :
    c.isDigit = true := by
  rcases List.mem_append.1 h with h | h
  · rw [(List.mem_replicate.1 h).2]; decide
  · exact Nat.isDigit_of_mem_toDigits (by decide) (by decide) h

theorem paddedDigits_ne_nil (zeros n : Nat) : paddedDigits zeros n ≠ [] := fun h =>
  Nat.toDigits_ne_nil (List.append_eq_nil_iff.1 h).2

theorem ofDigitChars_paddedDigits (zeros n : Nat) :
    Nat.ofDigitChars 10 (paddedDigits zeros n) 0 = n := by
  have hzeros : Nat.ofDigitChars 10 (List.replicate zeros '0') 0 = 0 := by
    induction zeros with
    | zero => rfl
    | succ k ih => rw [List.replicate_succ, Nat.ofDigitChars_cons]; exact ih
  rw [paddedDigits, Nat.ofDigitChars_append, hzeros,
    Nat.ofDigitChars_toDigits (by decide) (by decide)]

/-- A number below a bound is read from its digits. -/
theorem number?_paddedDigits {bound n : Nat} (zeros : Nat) (h : n < bound) :
    number? 10 bound (paddedDigits zeros n) = some n := by
  rw [number?_of_isDigit (paddedDigits_ne_nil zeros n) (fun _ => isDigit_of_mem_paddedDigits) ?_,
    ofDigitChars_paddedDigits]
  rw [ofDigitChars_paddedDigits]; exact h

theorem isDecimal_of_isDigit (h : c.isDigit = true) : isDecimal c = true := by
  simp only [Char.isDigit, Bool.and_eq_true, decide_eq_true_eq] at h
  have hfirst : 0x30 ≤ c.toNat := h.1
  have hlast : c.toNat ≤ 0x39 := h.2
  have hrange : (0x30, 0x39) ∈ digitRanges := List.mem_toArray.2 List.mem_cons_self
  refine Array.any_eq_true'.2 ⟨_, hrange, ?_⟩
  simp only [hfirst, hlast, decide_true, Bool.and_self]

theorem isBlank_of_isDigit (h : c.isDigit = true) : isBlank c = false := by
  simp only [Char.isDigit, Bool.and_eq_true, decide_eq_true_eq] at h
  have hfirst : 0x30 ≤ c.toNat := h.1
  have hlast : c.toNat ≤ 0x39 := h.2
  simp only [isBlank, Bool.or_eq_false_iff, Bool.and_eq_false_iff, decide_eq_false_iff_not,
    beq_eq_false_iff_ne]
  omega

end TiBench.Text
