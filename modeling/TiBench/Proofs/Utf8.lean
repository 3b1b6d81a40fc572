import TiBench.Text.Utf8

/-!
# UTF-8 read back

What a text was encoded to reads as the text again, whatever follows a character.
-/

namespace TiBench.Text

namespace Utf8

/-! ## The bytes of one character -/

theorem ofNat_le_ofNat {m n : Nat} (h : m ≤ n) (hn : n < 256) : UInt8.ofNat m ≤ UInt8.ofNat n :=
  (UInt8.ofNat_le_iff_le (Nat.lt_of_le_of_lt h hn) hn).2 h

theorem isTail_ofNat {n : Nat} (h : n < 64) : isTail (.ofNat (n + 0x80)) = true := by
  rw [isTail, Bool.and_eq_true, decide_eq_true_eq, decide_eq_true_eq]
  exact ⟨ofNat_le_ofNat (m := 0x80) (by omega) (by omega),
    ofNat_le_ofNat (n := 0xBF) (by omega) (by omega)⟩

theorem extend_ofNat (code : Nat) {n : Nat} (h : n < 64) :
    extend code (.ofNat (n + 0x80)) = code * 64 + n := by
  have hn := UInt8.toNat_ofNat_of_lt' (show n + 0x80 < 256 by omega)
  unfold extend
  rw [hn, Nat.add_sub_cancel]

variable {b second low high : UInt8} {lead : Nat} {rest : Bytes}

/-- A character of several bytes that are all there. -/
theorem next_whole (tails : Bytes) (hshape : shape b = some (tails.length + 2, low, high))
    (hlead : b.toNat % (if tails.length = 0 then 32 else if tails.length = 1 then 16 else 8) = lead)
    (hlow : low ≤ second) (hhigh : second ≤ high) (htails : ∀ t ∈ tails, isTail t = true) :
    next b (second :: (tails ++ rest))
      = (some (Char.ofNat (tails.foldl extend (extend lead second))), tails.length + 1) := by
  have htake : ((tails ++ rest).take tails.length).takeWhile isTail = tails := by
    rw [List.take_left]
    rw [← List.append_nil tails, List.takeWhile_append_of_pos htails, List.takeWhile_nil]
  have hin : ¬(second < low || high < second) = true := by
    simpa only [Bool.or_eq_true, decide_eq_true_eq, not_or, UInt8.not_lt] using ⟨hlow, hhigh⟩
  simp only [next, hshape, Nat.add_sub_cancel, htake, if_neg hin, if_true]
  simp only [Nat.reduceEqDiff, ← hlead]
  rfl

/-! ## Characters by their number of bytes -/

theorem next_one {v : Nat} (h : v < 0x80) :
    next (.ofNat v) rest = (some (Char.ofNat v), 0) := by
  have hb := UInt8.toNat_ofNat_of_lt' (show v < 256 by omega)
  have hshape : shape (.ofNat v) = some (1, 0, 0) := by
    rw [shape, if_pos (UInt8.lt_iff_toNat_lt.2 (by rw [hb]; exact h))]
  simp only [next, hshape, hb]

variable {n s t u : Nat}

theorem next_two (h₂ : 2 ≤ n) (h : n < 32) (hs : s < 64) :
    next (.ofNat (n + 0xc0)) (.ofNat (s + 0x80) :: rest)
      = (some (Char.ofNat (n * 64 + s)), 1) := by
  have hshape : ∀ n < 32, 2 ≤ n → shape (.ofNat (n + 0xc0)) = some (2, 0x80, 0xBF) := by decide
  have htail := isTail_ofNat hs
  simp only [isTail, Bool.and_eq_true, decide_eq_true_eq] at htail
  have hlead : (UInt8.ofNat (n + 0xc0)).toNat % 32 = n := by
    rw [UInt8.toNat_ofNat']
    omega
  refine (next_whole [] (hshape n h h₂) hlead htail.1 htail.2 nofun).trans ?_
  rw [List.foldl_nil, extend_ofNat n hs, List.length_nil]

/-- The second of three bytes excludes characters that are too short and surrogates. -/
theorem next_three (h : n < 16) (hs : s < 64) (ht : t < 64) (hzero : n = 0 → 32 ≤ s)
    (hthirteen : n = 13 → s < 32) :
    next (.ofNat (n + 0xe0)) (.ofNat (s + 0x80) :: .ofNat (t + 0x80) :: rest)
      = (some (Char.ofNat ((n * 64 + s) * 64 + t)), 2) := by
  have hshape : ∀ n < 16, shape (.ofNat (n + 0xe0)) = some (3,
      .ofNat (if n = 0 then 0xA0 else 0x80), .ofNat (if n = 13 then 0x9F else 0xBF)) := by decide
  have hlead : (UInt8.ofNat (n + 0xe0)).toNat % 16 = n := by
    rw [UInt8.toNat_ofNat']
    omega
  refine (next_whole [_] (hshape n h) hlead ?low ?high ?tails).trans ?_
  case low => exact ofNat_le_ofNat (by split <;> omega) (by omega)
  case high => exact ofNat_le_ofNat (by split <;> omega) (by split <;> omega)
  case tails => exact List.forall_mem_cons.2 ⟨isTail_ofNat ht, nofun⟩
  rw [List.foldl_cons, List.foldl_nil, extend_ofNat n hs, extend_ofNat _ ht, List.length_singleton]

/-- The second of four bytes excludes characters that are too short and too great. -/
theorem next_four (h : n < 5) (hs : s < 64) (ht : t < 64) (hu : u < 64) (hzero : n = 0 → 16 ≤ s)
    (hfour : n = 4 → s < 16) :
    next (.ofNat (n + 0xf0))
        (.ofNat (s + 0x80) :: .ofNat (t + 0x80) :: .ofNat (u + 0x80) :: rest)
      = (some (Char.ofNat (((n * 64 + s) * 64 + t) * 64 + u)), 3) := by
  have hshape : ∀ n < 5, shape (.ofNat (n + 0xf0)) = some (4,
      .ofNat (if n = 0 then 0x90 else 0x80), .ofNat (if n = 4 then 0x8F else 0xBF)) := by decide
  have hlead : (UInt8.ofNat (n + 0xf0)).toNat % 8 = n := by
    rw [UInt8.toNat_ofNat']
    omega
  refine (next_whole [_, _] (hshape n h) hlead ?low ?high ?tails).trans ?_
  case low => exact ofNat_le_ofNat (by split <;> omega) (by omega)
  case high => exact ofNat_le_ofNat (by split <;> omega) (by split <;> omega)
  case tails =>
    exact List.forall_mem_cons.2 ⟨isTail_ofNat ht, List.forall_mem_cons.2 ⟨isTail_ofNat hu, nofun⟩⟩
  rw [List.foldl_cons, List.foldl_cons, List.foldl_nil, extend_ofNat n hs, extend_ofNat _ ht,
    extend_ofNat _ hu]
  rfl

theorem next_utf8EncodeChar (c : Char) (rest : Bytes) :
    ∃ b bs, String.utf8EncodeChar c = b :: bs ∧ next b (bs ++ rest) = (some c, bs.length) := by
  have hc : Char.ofNat c.val.toNat = c := Char.ofNat_toNat c
  have hvalid : c.val.toNat < 0xd800 ∨ 0xdfff < c.val.toNat ∧ c.val.toNat < 0x110000 := c.valid
  rw [String.utf8EncodeChar]
  generalize c.val.toNat = v at hc hvalid ⊢
  subst c
  split
  case isTrue h₁ => exact ⟨_, _, rfl, next_one (by omega)⟩
  split
  case isTrue h₁ h₂ =>
    refine ⟨_, _, rfl, (next_two ?_ ?_ ?_).trans ?_⟩
    case refine_4 => rw [show v / 64 % 32 * 64 + v % 64 = v by omega]; rfl
    all_goals omega
  split
  case isTrue h₁ h₂ h₃ =>
    refine ⟨_, _, rfl, (next_three ?_ ?_ ?_ ?_ ?_).trans ?_⟩
    case refine_6 => rw [show (v / 4096 % 16 * 64 + v / 64 % 64) * 64 + v % 64 = v by omega]; rfl
    all_goals omega
  case isFalse h₁ h₂ h₃ =>
    refine ⟨_, _, rfl, (next_four ?_ ?_ ?_ ?_ ?_ ?_).trans ?_⟩
    case refine_7 =>
      rw [show ((v / 262144 % 8 * 64 + v / 4096 % 64) * 64 + v / 64 % 64) * 64 + v % 64 = v by
        omega]
      rfl
    all_goals omega

theorem readAfter_utf8EncodeChar (done : List (Option Char)) (c : Char) (rest : Bytes) :
    readAfter done (String.utf8EncodeChar c ++ rest) = readAfter (some c :: done) rest := by
  obtain ⟨b, bs, hencode, hnext⟩ := next_utf8EncodeChar c rest
  rw [hencode, List.cons_append, readAfter, hnext]
  simp only [List.drop_left]

theorem readAfter_utf8 (done : List (Option Char)) (cs : List Char) :
    readAfter done (cs.flatMap String.utf8EncodeChar) = done.reverse ++ cs.map some := by
  induction cs generalizing done with
  | nil => rw [List.flatMap_nil, readAfter, List.map_nil, List.append_nil]
  | cons c cs ih =>
      rw [List.flatMap_cons, readAfter_utf8EncodeChar, ih, List.reverse_cons, List.map_cons,
        List.append_assoc, List.singleton_append]

end Utf8

theorem ofUtf8Lossy_utf8 (s : String) : ofUtf8Lossy (utf8 s) = s.toList := by
  rw [ofUtf8Lossy, Utf8.read, utf8, Utf8.readAfter_utf8, List.reverse_nil, List.nil_append,
    List.map_map]
  exact List.map_id _

/-- Texts are told apart by their bytes. -/
theorem eq_of_utf8_eq {a b : String} (h : utf8 a = utf8 b) : a = b := by
  rw [← String.toList_inj, ← ofUtf8Lossy_utf8, ← ofUtf8Lossy_utf8, h]

/-- An ASCII text has ASCII bytes only. -/
theorem lt_of_mem_utf8 {s : String} (h : ∀ c ∈ s.toList, c.toNat < 0x80) {b : UInt8}
    (hb : b ∈ utf8 s) : b < 0x80 := by
  obtain ⟨c, hc, hb⟩ := List.mem_flatMap.1 hb
  have hlt : c.val.toNat < 0x80 := h c hc
  have hle : c.val.toNat ≤ 0x7f := Nat.le_of_lt_succ hlt
  rw [String.utf8EncodeChar, if_pos hle, List.mem_singleton] at hb
  rw [hb, UInt8.lt_iff_toNat_lt, UInt8.toNat_ofNat']
  exact Nat.lt_of_le_of_lt (Nat.mod_le _ _) hlt

end TiBench.Text
