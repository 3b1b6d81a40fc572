import TiBench.SectorImage
import TiBench.Proofs.Pieces

/-!
# Laws of byte strings

Words and their two bytes, byte strings filled up to a length, and the parts of a block that was
written part by part.
-/

namespace TiBench

/-! ## Words -/

namespace Bytes

theorem toNat_word (high low : UInt8) : (word high low).toNat = high.toNat * 256 + low.toNat := by
  have hh := high.toNat_lt
  have hl := low.toNat_lt
  rw [word, UInt16.toNat_or, UInt16.toNat_shiftLeft, UInt8.toNat_toUInt16, UInt8.toNat_toUInt16,
    show (8 : UInt16).toNat % 16 = 8 from rfl, Nat.shiftLeft_eq, Nat.mod_eq_of_lt (by omega),
    ← Nat.shiftLeft_eq, ← Nat.shiftLeft_add_eq_or_of_lt (by omega), Nat.shiftLeft_eq]

theorem toNat_high (w : UInt16) : (w >>> 8).toUInt8.toNat = w.toNat / 256 := by
  have hw := w.toNat_lt
  rw [UInt16.toNat_toUInt8, UInt16.toNat_shiftRight, show (8 : UInt16).toNat % 16 = 8 from rfl,
    Nat.shiftRight_eq_div_pow]
  omega

theorem word_bytes (w : UInt16) : word (w >>> 8).toUInt8 w.toUInt8 = w := by
  apply UInt16.toNat_inj.1
  rw [toNat_word, toNat_high, UInt16.toNat_toUInt8]
  omega

/-- The two bytes of a word that was made of them. -/
theorem bytes_word (high low : UInt8) :
    (word high low >>> 8).toUInt8 = high ∧ (word high low).toUInt8 = low := by
  have hl := low.toNat_lt
  constructor
  · apply UInt8.toNat_inj.1
    rw [toNat_high, toNat_word]
    omega
  · apply UInt8.toNat_inj.1
    rw [UInt16.toNat_toUInt8, toNat_word]
    omega

theorem ofInt_natCast (n : Nat) : UInt16.ofInt n = UInt16.ofNat n := by
  apply UInt16.toNat_inj.1
  rw [UInt16.ofInt, UInt16.toNat_ofNat', UInt16.toNat_ofNat']
  omega

theorem length_flatMap_ofWordBE (ws : List UInt16) :
    (ws.flatMap ofWordBE).length = 2 * ws.length := by
  induction ws with
  | nil => rfl
  | cons w ws ih =>
      rw [List.flatMap_cons, List.length_append, ih, List.length_cons, Nat.mul_succ, Nat.add_comm]
      rfl

theorem wordsBE_append (ws : List UInt16) (b : Bytes) :
    wordsBE (ws.flatMap ofWordBE ++ b) = ws ++ wordsBE b := by
  induction ws with
  | nil => rfl
  | cons w ws ih =>
      have hw : wordsBE (ofWordBE w ++ (ws.flatMap ofWordBE ++ b))
          = word (w >>> 8).toUInt8 w.toUInt8 :: wordsBE (ws.flatMap ofWordBE ++ b) := rfl
      rw [List.flatMap_cons, List.append_assoc, hw, word_bytes, ih, List.cons_append]

theorem getElem?_wordsBE {b : Bytes} {i : Nat} (h : 2 * i + 1 < b.length) :
    (wordsBE b)[i]? = some (word (b.getD (2 * i) 0) (b.getD (2 * i + 1) 0)) := by
  fun_induction wordsBE b generalizing i with
  | case1 high low rest ih =>
      cases i with
      | zero => rfl
      | succ i =>
          have hrest : 2 * i + 1 < rest.length := by
            simp only [List.length_cons] at h
            omega
          rw [List.getElem?_cons_succ, ih hrest]
          rfl
  | case2 b hb =>
      match b with
      | [] => cases h
      | [_] => simp at h
      | high :: low :: rest => exact absurd rfl (hb high low rest)

theorem eq_zero_of_mem_wordsBE_replicate {k : Nat} {w : UInt16}
    (h : w ∈ wordsBE (List.replicate k 0)) : w = 0 := by
  induction k using Nat.strongRecOn with
  | ind k ih =>
      match k with
      | 0 => cases h
      | 1 => cases h
      | k + 2 =>
          rw [List.replicate_succ, List.replicate_succ, wordsBE, List.mem_cons] at h
          rcases h with rfl | h
          · rfl
          · exact ih k (by omega) h

/-! ## Filling up -/

theorem fit_of_length_le {pad : UInt8} {n : Nat} {b : Bytes} (h : b.length ≤ n) :
    fit pad n b = b ++ List.replicate (n - b.length) pad := by
  rw [fit, List.take_of_length_le h]

theorem fit_of_length_eq {pad : UInt8} {n : Nat} {b : Bytes} (h : b.length = n) :
    fit pad n b = b := by
  rw [fit_of_length_le (Nat.le_of_eq h), h, Nat.sub_self, List.replicate_zero, List.append_nil]

theorem fit_take (pad : UInt8) (n : Nat) (b : Bytes) : fit pad n (b.take n) = fit pad n b := by
  have hpad : n - min n b.length = n - b.length := by omega
  rw [fit, fit, List.take_take, Nat.min_self, List.length_take, hpad]

/-- Pieces of a byte string, each filled up, are the string with padding after it. -/
theorem flatMap_fit_chunks (pad : UInt8) {n : Nat} (hn : 0 < n) (b : Bytes) :
    ∃ k, (Pieces.chunks n b).flatMap (fit pad n) = b ++ List.replicate k pad := by
  induction b using Pieces.chunks_induction hn with
  | nil => exact ⟨0, by rw [Pieces.chunks_nil]; rfl⟩
  | step b hb ih =>
      rw [Pieces.chunks_eq_cons hn hb, List.flatMap_cons]
      by_cases hle : b.length ≤ n
      · rw [List.drop_eq_nil_of_le hle, Pieces.chunks_nil, List.flatMap_nil, List.append_nil,
          List.take_of_length_le hle]
        exact ⟨_, fit_of_length_le hle⟩
      · obtain ⟨k, ih⟩ := ih
        rw [ih, fit_of_length_eq (List.length_take_of_le (by omega)), ← List.append_assoc,
          List.take_append_drop]
        exact ⟨k, rfl⟩

theorem length_flatMap_fit (pad : UInt8) (n : Nat) (pieces : List Bytes) :
    (pieces.flatMap (fit pad n)).length = pieces.length * n := by
  induction pieces with
  | nil => simp
  | cons p pieces ih =>
      rw [List.flatMap_cons, List.length_append, length_fit, ih, List.length_cons, Nat.succ_mul,
        Nat.add_comm]

/-- The piece that stands in a slot, when each piece is filled up to the length of one. -/
theorem slot_flatMap_fit {pad : UInt8} {n i : Nat} {pieces : List Bytes} {p : Bytes}
    (h : pieces[i]? = some p) (rest : Bytes) :
    ((pieces.flatMap (fit pad n) ++ rest).drop (i * n)).take n = fit pad n p := by
  induction pieces generalizing i with
  | nil => cases h
  | cons q pieces ih =>
      rw [List.flatMap_cons, List.append_assoc]
      cases i with
      | zero =>
          rw [List.getElem?_cons_zero] at h
          rw [Nat.zero_mul, List.drop_zero, Option.some.inj h,
            List.take_left' (length_fit pad n p)]
      | succ i =>
          rw [List.getElem?_cons_succ] at h
          rw [Nat.succ_mul, Nat.add_comm, ← List.drop_drop, List.drop_left' (length_fit pad n q),
            ih h]

end Bytes

/-! ## Parts of a block -/

theorem Bytes.drop_part {b p rest : Bytes} {off n : Nat} (h : b.drop off = p ++ rest)
    (hlen : p.length = n) : b.drop (off + n) = rest := by
  rw [← List.drop_drop, h, List.drop_left' hlen]

namespace Block

variable {n : Nat}

theorem slice_of_drop {b : Block n} {off len : Nat} {part : Block len} {rest : Bytes}
    (h : b.bytes.drop off = part.bytes ++ rest) : b.slice off len = part := by
  apply Block.ext
  have hlen : len - (part.bytes ++ rest).length = 0 := by
    rw [List.length_append, part.length_eq]; omega
  simp only [slice, fit, Bytes.fit, h, hlen, List.replicate_zero, List.append_nil]
  exact List.take_left' part.length_eq

theorem byte_of_drop {b : Block n} {off : Nat} {x : UInt8} {rest : Bytes}
    (h : b.bytes.drop off = x :: rest) : b.byte off = x := by
  rw [byte, List.getD_eq_getElem?_getD, ← List.head?_drop, h, List.head?_cons, Option.getD_some]

theorem wordBE_of_drop {b : Block n} {off : Nat} {w : UInt16} {rest : Bytes}
    (h : b.bytes.drop off = Bytes.ofWordBE w ++ rest) : b.wordBE off = w := by
  have hlow : b.bytes.drop (off + 1) = w.toUInt8 :: rest := by
    rw [← List.drop_drop, h]; rfl
  rw [wordBE, byte_of_drop h, byte_of_drop hlow, Bytes.word_bytes]

theorem wordLE_of_drop {b : Block n} {off : Nat} {w : UInt16} {rest : Bytes}
    (h : b.bytes.drop off = Bytes.ofWordLE w ++ rest) : b.wordLE off = w := by
  have hhigh : b.bytes.drop (off + 1) = (w >>> 8).toUInt8 :: rest := by
    rw [← List.drop_drop, h]; rfl
  rw [wordLE, byte_of_drop h, byte_of_drop hhigh, Bytes.word_bytes]

theorem toNat_wordBE (b : Block n) (off : Nat) :
    (b.wordBE off).toNat = (b.byte off).toNat * 256 + (b.byte (off + 1)).toNat :=
  Bytes.toNat_word ..

theorem toNat_wordLE (b : Block n) (off : Nat) :
    (b.wordLE off).toNat = (b.byte (off + 1)).toNat * 256 + (b.byte off).toNat :=
  Bytes.toNat_word ..

/-! What stands at an offset, and what comes after it. -/

theorem drop_eq_slice (b : Block n) (off len : Nat) (h : off + len ≤ n) :
    b.bytes.drop off = (b.slice off len).bytes ++ b.bytes.drop (off + len) := by
  rw [bytes_slice b h, ← List.drop_drop, List.take_append_drop]

theorem drop_eq_byte (b : Block n) (off : Nat) (h : off < n) :
    b.bytes.drop off = b.byte off :: b.bytes.drop (off + 1) := by
  have hlt : off < b.bytes.length := by rw [b.length_eq]; exact h
  rw [List.drop_eq_getElem_cons hlt, byte, List.getD_eq_getElem?_getD, List.getElem?_eq_getElem hlt,
    Option.getD_some]

theorem drop_eq_wordBE (b : Block n) (off : Nat) (h : off + 1 < n) :
    b.bytes.drop off = Bytes.ofWordBE (b.wordBE off) ++ b.bytes.drop (off + 2) := by
  obtain ⟨hhigh, hlow⟩ := Bytes.bytes_word (b.byte off) (b.byte (off + 1))
  rw [wordBE, Bytes.ofWordBE, hhigh, hlow, drop_eq_byte b off (Nat.lt_of_succ_lt h),
    drop_eq_byte b (off + 1) h]
  rfl

theorem drop_eq_wordLE (b : Block n) (off : Nat) (h : off + 1 < n) :
    b.bytes.drop off = Bytes.ofWordLE (b.wordLE off) ++ b.bytes.drop (off + 2) := by
  obtain ⟨hhigh, hlow⟩ := Bytes.bytes_word (b.byte (off + 1)) (b.byte off)
  rw [wordLE, Bytes.ofWordLE, hhigh, hlow, drop_eq_byte b off (Nat.lt_of_succ_lt h),
    drop_eq_byte b (off + 1) h]
  rfl

theorem drop_eq_nil (b : Block n) (off : Nat) (h : n ≤ off) : b.bytes.drop off = [] :=
  List.drop_eq_nil_of_le (Nat.le_trans (Nat.le_of_eq b.length_eq) h)

end Block

end TiBench
