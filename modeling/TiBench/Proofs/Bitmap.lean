import TiBench.Volume.Bitmap
import TiBench.Proofs.Bytes
import Mathlib.Algebra.Group.Nat.Defs
import Mathlib.Data.Nat.Count

/-!
# Laws of the allocation bitmap

A bitmap is a set of sectors: what marking does to it, that its bytes describe it, and which sector
a search finds.
-/

namespace TiBench.Volume.Bitmap

/-! ## Bits of a byte -/

theorem testBit_foldr (bits : List Bool) (k : Nat) :
    (bits.foldr (fun (bit : Bool) n => 2 * n + bit.toNat) 0).testBit k = bits.getD k false := by
  induction bits generalizing k with
  | nil => rw [List.foldr_nil, Nat.zero_testBit, List.getD_nil]
  | cons bit bits ih =>
      rw [List.foldr_cons]
      cases k with
      | zero =>
          rw [Nat.testBit_zero, List.getD_cons_zero]
          cases bit <;> simp only [Bool.toNat_true, Bool.toNat_false] <;> simp
      | succ k =>
          rw [Nat.testBit_succ, List.getD_cons_succ, ← ih]
          congr 1
          cases bit <;> simp only [Bool.toNat_true, Bool.toNat_false] <;> omega

theorem foldr_lt (bits : List Bool) :
    bits.foldr (fun (bit : Bool) n => 2 * n + bit.toNat) 0 < 2 ^ bits.length := by
  induction bits with
  | nil => decide
  | cons bit bits ih =>
      rw [List.foldr_cons, List.length_cons, Nat.pow_succ]
      cases bit <;> simp only [Bool.toNat_true, Bool.toNat_false] <;> omega

theorem toNat_byteOfBits {bits : List Bool} (h : bits.length ≤ 8) : (byteOfBits bits).toNat
    = bits.foldr (fun (bit : Bool) n => 2 * n + bit.toNat) 0 :=
  UInt8.toNat_ofNat_of_lt' (Nat.lt_of_lt_of_le (foldr_lt bits) (Nat.pow_le_pow_right (by decide) h))

theorem bitsOfByte_byteOfBits {bits : List Bool} (h : bits.length = 8) :
    bitsOfByte (byteOfBits bits) = bits := by
  apply List.ext_getElem?
  intro k
  rw [bitsOfByte, toNat_byteOfBits (Nat.le_of_eq h), List.getElem?_map]
  by_cases hk : k < 8
  · rw [List.getElem?_range hk, Option.map_some, testBit_foldr, List.getD_eq_getElem?_getD,
      List.getElem?_eq_getElem (by omega), Option.getD_some]
  · rw [List.getElem?_eq_none (by rw [List.length_range]; omega), Option.map_none,
      List.getElem?_eq_none (by omega)]

theorem getD_concat (bits : List Bool) (bit : Bool) (k : Nat) :
    (bits ++ [bit]).getD k false = (bits.getD k false || bit && decide (bits.length = k)) := by
  rw [List.getD_eq_getElem?_getD, List.getD_eq_getElem?_getD]
  rcases Nat.lt_trichotomy k bits.length with hlt | rfl | hgt
  · rw [List.getElem?_append_left hlt, decide_eq_false (Nat.ne_of_gt hlt), Bool.and_false,
      Bool.or_false]
  · rw [List.getElem?_concat_length, List.getElem?_eq_none (Nat.le_refl _), decide_eq_true rfl,
      Bool.and_true]
    rfl
  · rw [List.getElem?_eq_none (by rw [List.length_append]; exact hgt),
      List.getElem?_eq_none (Nat.le_of_lt hgt), decide_eq_false (Nat.ne_of_lt hgt), Bool.and_false]
    rfl

/-- A byte takes one bit more in the next place. -/
theorem byteOfBits_concat {bits : List Bool} (h : bits.length < 8) (bit : Bool) :
    byteOfBits (bits ++ [bit])
      = if bit then byteOfBits bits ||| 1 <<< UInt8.ofNat bits.length else byteOfBits bits := by
  have hlen : (bits ++ [bit]).length ≤ 8 := by rw [List.length_append]; exact h
  have hshift : ((1 : UInt8) <<< UInt8.ofNat bits.length).toNat = 2 ^ bits.length := by
    rw [UInt8.toNat_shiftLeft, UInt8.toNat_ofNat_of_lt' (Nat.lt_trans h (by decide)),
      Nat.mod_eq_of_lt h]
    change 1 <<< bits.length % 2 ^ 8 = 2 ^ bits.length
    rw [Nat.one_shiftLeft, Nat.mod_eq_of_lt (Nat.pow_lt_pow_right (by decide) h)]
  apply UInt8.toNat_inj.1
  apply Nat.eq_of_testBit_eq
  intro k
  rw [toNat_byteOfBits hlen, testBit_foldr, getD_concat]
  cases bit with
  | false =>
      rw [if_neg Bool.false_ne_true, toNat_byteOfBits (Nat.le_of_lt h), testBit_foldr,
        Bool.false_and, Bool.or_false]
  | true =>
      rw [if_pos rfl, UInt8.toNat_or, hshift, Nat.testBit_or, Nat.testBit_two_pow,
        toNat_byteOfBits (Nat.le_of_lt h), testBit_foldr, Bool.true_and]

/-! ## A bitmap and its bytes -/

theorem size_ofBytes (b : Bytes) : (ofBytes b).bits.size = b.length * 8 := by
  rw [ofBytes, List.size_toArray]
  induction b with
  | nil => rfl
  | cons x b ih =>
      rw [List.flatMap_cons, List.length_append, ih, bitsOfByte, List.length_map, List.length_range,
        List.length_cons, Nat.succ_mul, Nat.add_comm]

theorem size_blank (total : Nat) : (blank total).bits.size = maxSectors := by
  rw [blank, List.size_toArray, List.length_map, List.length_range]

@[simp] theorem size_mark (m : Bitmap) (s : Nat) (used : Bool) :
    (m.mark s used).bits.size = m.bits.size := Array.size_setIfInBounds

/-- The bytes of a bitmap of full size describe it. -/
theorem ofBytes_toBytes {m : Bitmap} (h : m.bits.size = maxSectors) :
    ofBytes m.toBytes.bytes = m := by
  have hlen : m.bits.toList.length = bitmapSize * 8 := h
  have hcount : ((Pieces.chunks 8 m.bits.toList).map byteOfBits).length = bitmapSize := by
    rw [List.length_map, Pieces.length_chunks (by decide), hlen]; decide
  have hbits : ((Pieces.chunks 8 m.bits.toList).map byteOfBits).flatMap bitsOfByte
      = m.bits.toList := by
    rw [List.flatMap_map]
    calc (Pieces.chunks 8 m.bits.toList).flatMap (fun c => bitsOfByte (byteOfBits c))
        = (Pieces.chunks 8 m.bits.toList).flatMap id := by
          rw [List.flatMap_def, List.flatMap_def]
          congr 1
          exact List.map_congr_left fun c hc =>
            bitsOfByte_byteOfBits (Pieces.length_eq_of_mem_chunks (by decide) hlen hc)
      _ = m.bits.toList := by
          rw [List.flatMap_id, Pieces.flatten_chunks (by decide)]
  have hbytes : m.toBytes.bytes = (Pieces.chunks 8 m.bits.toList).map byteOfBits :=
    Bytes.fit_of_length_eq hcount
  rw [ofBytes, hbytes, hbits, Array.toArray_toList]

theorem byteOfBits_bitsOfByte (b : UInt8) : byteOfBits (bitsOfByte b) = b := by
  have hlen : (bitsOfByte b).length = 8 := by simp [bitsOfByte]
  apply UInt8.toNat_inj.1
  apply Nat.eq_of_testBit_eq
  intro k
  rw [toNat_byteOfBits (Nat.le_of_eq hlen), testBit_foldr, List.getD_eq_getElem?_getD]
  by_cases hk : k < 8
  · simp [bitsOfByte, hk]
  · have hlt : b.toNat < 2 ^ k :=
      Nat.lt_of_lt_of_le b.toNat_lt (Nat.pow_le_pow_right (by decide) (Nat.not_lt.1 hk))
    rw [List.getElem?_eq_none (by omega), Nat.testBit_lt_two_pow hlt]
    rfl

/-- Bytes are the ones of the bitmap that they describe. -/
theorem toBytes_ofBytes (b : Block bitmapSize) : (ofBytes b.bytes).toBytes = b := by
  have hbits : ∀ p ∈ b.bytes.map bitsOfByte, p.length = 8 := by simp [bitsOfByte]
  have hbytes : (b.bytes.map bitsOfByte).map byteOfBits = b.bytes := by
    rw [List.map_map]
    exact (List.map_congr_left fun x _ => byteOfBits_bitsOfByte x).trans (List.map_id _)
  apply Block.ext
  rw [toBytes, ofBytes, List.flatMap_def, List.toList_toArray,
    Pieces.chunks_flatten (by decide) hbits, hbytes]
  exact Bytes.fit_of_length_eq b.length_eq

/-- The bit of a sector among bytes that describe a bitmap. -/
theorem isUsed_ofBytes {b : Bytes} {s : Nat} (h : s < b.length * 8) :
    (ofBytes b).isUsed s = (b.getD (s / 8) 0).toNat.testBit (s % 8) := by
  have hbits : ∀ p ∈ b.map bitsOfByte, p.length = 8 := by simp [bitsOfByte]
  have hbyte : s / 8 < b.length := by omega
  have hbit : s % 8 < 8 := Nat.mod_lt s (by decide)
  rw [isUsed, ofBytes, Array.getD_eq_getD_getElem?, List.getElem?_toArray, List.flatMap_def,
    Pieces.getElem?_flatten (by decide) hbits, List.getElem?_map, List.getElem?_eq_getElem hbyte,
    Option.map_some, Option.bind_some, bitsOfByte, List.getElem?_map, List.getElem?_range hbit,
    Option.map_some, Option.getD_some, List.getD_eq_getElem?_getD, List.getElem?_eq_getElem hbyte,
    Option.getD_some]

theorem testBit_toBytes {m : Bitmap} (hm : m.bits.size = maxSectors) {s : Nat}
    (hs : s < maxSectors) : (m.toBytes.byte (s / 8)).toNat.testBit (s % 8) = m.isUsed s := by
  have hlen : s < m.toBytes.bytes.length * 8 := by rw [m.toBytes.length_eq]; exact hs
  conv => rhs; rw [← ofBytes_toBytes hm]
  exact (isUsed_ofBytes hlen).symm

/-! ## Marks -/

theorem ext_isUsed {m m' : Bitmap} (hsize : m'.bits.size = m.bits.size)
    (h : ∀ s, m'.isUsed s = m.isUsed s) : m' = m := by
  obtain ⟨bits⟩ := m
  obtain ⟨bits'⟩ := m'
  congr 1
  refine Array.ext hsize fun s hs' hs => ?_
  have hsame := h s
  rwa [isUsed, isUsed, Array.getD_eq_getD_getElem?, Array.getD_eq_getD_getElem?,
    Array.getElem?_eq_getElem hs', Array.getElem?_eq_getElem hs] at hsame

theorem isUsed_blank {total s : Nat} (h : total ≤ maxSectors) :
    (blank total).isUsed s = decide (total ≤ s) := by
  rw [isUsed, blank, Array.getD_eq_getD_getElem?, List.getElem?_toArray, List.getElem?_map]
  by_cases hs : s < maxSectors
  · rw [List.getElem?_range hs, Option.map_some, Option.getD_some]
  · rw [List.getElem?_eq_none (by rw [List.length_range]; omega), Option.map_none,
      Option.getD_none, decide_eq_true (by omega)]

theorem isUsed_of_size_le {m : Bitmap} {s : Nat} (h : m.bits.size ≤ s) : m.isUsed s = true := by
  rw [isUsed, Array.getD_eq_getD_getElem?, Array.getElem?_eq_none h, Option.getD_none]

theorem isUsed_mark (m : Bitmap) (s t : Nat) (used : Bool) :
    (m.mark s used).isUsed t = if s = t ∧ s < m.bits.size then used else m.isUsed t := by
  rw [isUsed, isUsed, mark, Array.getD_eq_getD_getElem?, Array.getD_eq_getD_getElem?,
    Array.getElem?_setIfInBounds]
  by_cases hst : s = t
  · by_cases hs : s < m.bits.size
    · rw [if_pos hst, if_pos hs, if_pos ⟨hst, hs⟩, Option.getD_some]
    · rw [if_pos hst, if_neg hs, if_neg fun h => hs h.2, ← hst,
        Array.getElem?_eq_none (Nat.not_lt.1 hs)]
  · rw [if_neg hst, if_neg fun h => hst h.1]

/-- A sector that the bitmap does not describe is in use already, so marking it as used needs no
bound. -/
theorem isUsed_mark_true (m : Bitmap) (s t : Nat) :
    (m.mark s true).isUsed t = true ↔ t = s ∨ m.isUsed t = true := by
  rw [isUsed_mark]
  split
  · rename_i h
    simp [h.1]
  · rename_i h
    constructor
    · exact Or.inr
    · rintro (rfl | ht)
      · exact isUsed_of_size_le (Nat.not_lt.1 fun hs => h ⟨rfl, hs⟩)
      · exact ht

theorem isUsed_mark_true_eq_false {m : Bitmap} {s t : Nat} :
    (m.mark s true).isUsed t = false ↔ t ≠ s ∧ m.isUsed t = false := by
  rw [← Bool.not_eq_true, isUsed_mark_true, not_or, Bool.not_eq_true]

/-- The bitmap with sectors marked one after the other. -/
def markEach (m : Bitmap) (marks : List (Nat × Bool)) : Bitmap :=
  marks.foldl (fun m c => m.mark c.1 c.2) m

theorem size_markEach (m : Bitmap) (marks : List (Nat × Bool)) :
    (m.markEach marks).bits.size = m.bits.size := by
  induction marks generalizing m with
  | nil => rfl
  | cons c marks ih => rw [markEach, List.foldl_cons]; exact (ih _).trans (size_mark m c.1 c.2)

/-- A sector has the last mark that it was given, if the bitmap describes it. -/
theorem isUsed_markEach (m : Bitmap) (marks : List (Nat × Bool)) (s : Nat) :
    (m.markEach marks).isUsed s
      = if s < m.bits.size then (marks.reverse.lookup s).getD (m.isUsed s) else true := by
  by_cases hs : s < m.bits.size
  · rw [if_pos hs]
    induction marks generalizing m with
    | nil => rfl
    | cons c marks ih =>
        obtain ⟨t, used⟩ := c
        have hstep : (m.markEach ((t, used) :: marks)).isUsed s
            = (marks.reverse.lookup s).getD ((m.mark t used).isUsed s) :=
          ih (m.mark t used) (by rw [size_mark]; exact hs)
        rw [hstep, isUsed_mark, List.reverse_cons, List.lookup_append, Option.getD_or]
        by_cases hts : t = s
        · rw [if_pos ⟨hts, hts ▸ hs⟩, hts, List.lookup_cons_self, Option.getD_some]
        · rw [if_neg fun h => hts h.1, List.lookup_cons, beq_false_of_ne (Ne.symm hts)]
          rfl
  · rw [if_neg hs]
    exact isUsed_of_size_le (by rw [size_markEach]; exact Nat.not_lt.1 hs)

/-- The bitmap with all the sectors of a list marked. -/
def markAll (m : Bitmap) (sectors : List Nat) (used : Bool) : Bitmap :=
  sectors.foldl (fun m s => m.mark s used) m

theorem markAll_eq_markEach (m : Bitmap) (sectors : List Nat) (used : Bool) :
    m.markAll sectors used = m.markEach (sectors.map (·, used)) := by
  rw [markAll, markEach, List.foldl_map]

theorem size_markAll (m : Bitmap) (sectors : List Nat) (used : Bool) :
    (m.markAll sectors used).bits.size = m.bits.size := by
  rw [markAll_eq_markEach, size_markEach]

theorem lookup_map_pair (sectors : List Nat) (used : Bool) (t : Nat) :
    (sectors.map (·, used)).lookup t = if t ∈ sectors then some used else none := by
  induction sectors with
  | nil => rfl
  | cons s sectors ih =>
      rw [List.map_cons, List.lookup_cons, ih]
      by_cases hts : t = s
      · simp [hts]
      · simp [hts, beq_false_of_ne hts]

theorem isUsed_markAll (m : Bitmap) (sectors : List Nat) (used : Bool) (t : Nat) :
    (m.markAll sectors used).isUsed t
      = if t ∈ sectors ∧ t < m.bits.size then used else m.isUsed t := by
  rw [markAll_eq_markEach, isUsed_markEach, ← List.map_reverse, lookup_map_pair]
  simp only [List.mem_reverse]
  by_cases ht : t < m.bits.size
  · by_cases hmem : t ∈ sectors
    · rw [if_pos ht, if_pos hmem, if_pos ⟨hmem, ht⟩, Option.getD_some]
    · rw [if_pos ht, if_neg hmem, if_neg fun h => hmem h.1, Option.getD_none]
  · rw [if_neg ht, if_neg fun h => ht h.2, isUsed_of_size_le (Nat.not_lt.1 ht)]

theorem isUsed_markAll_true (m : Bitmap) (sectors : List Nat) (t : Nat) :
    (m.markAll sectors true).isUsed t = true ↔ t ∈ sectors ∨ m.isUsed t = true := by
  rw [isUsed_markAll]
  by_cases ht : t < m.bits.size
  · simp [ht]
  · simp [ht, isUsed_of_size_le (Nat.not_lt.1 ht)]

theorem isUsed_markAll_false (m : Bitmap) {sectors : List Nat} (h : ∀ s ∈ sectors, s < m.bits.size)
    (t : Nat) : (m.markAll sectors false).isUsed t = true ↔ t ∉ sectors ∧ m.isUsed t = true := by
  rw [isUsed_markAll]
  by_cases hmem : t ∈ sectors
  · simp [hmem, h t hmem]
  · simp [hmem]

/-- Free sectors that are marked and then freed again leave the bitmap as it was. -/
theorem markAll_true_false {m : Bitmap} {sectors : List Nat}
    (h : ∀ s ∈ sectors, s < m.bits.size ∧ m.isUsed s = false) :
    (m.markAll sectors true).markAll sectors false = m := by
  refine ext_isUsed (by rw [size_markAll, size_markAll]) fun t => ?_
  rw [Bool.eq_iff_iff, isUsed_markAll_false _ (fun s hs => by rw [size_markAll]; exact (h s hs).1),
    isUsed_markAll_true]
  constructor
  · rintro ⟨ht, hmem | hused⟩
    · exact absurd hmem ht
    · exact hused
  · intro hused
    refine ⟨fun hmem => ?_, Or.inr hused⟩
    rw [(h t hmem).2] at hused
    cases hused

/-! ## Counts -/

theorem length_filter_isUsed_add_countFree (m : Bitmap) (stop : Nat) :
    ((List.range stop).filter m.isUsed).length + m.countFree stop = stop := by
  have hcount := List.length_eq_countP_add_countP m.isUsed (l := List.range stop)
  have hfree : m.countFree stop
      = List.countP (fun s => decide ¬m.isUsed s = true) (List.range stop) :=
    List.countP_congr fun s _ => by simp
  rw [List.length_range, List.countP_eq_length_filter, ← hfree] at hcount
  exact hcount.symm

theorem countFree_le (m : Bitmap) (stop : Nat) : m.countFree stop ≤ stop := by
  have hcount := m.length_filter_isUsed_add_countFree stop
  omega

theorem countFree_eq_card (m : Bitmap) (stop : Nat) :
    m.countFree stop = {s ∈ Finset.range stop | m.isUsed s = false}.card := by
  rw [← Nat.count_eq_card_filter_range]
  exact List.countP_congr fun s _ => by simp

/-- A blank volume has as many free sectors as it has sectors. -/
theorem countFree_blank {total stop : Nat} (hmax : total ≤ maxSectors) (hle : total ≤ stop) :
    (blank total).countFree stop = total := by
  have hfree : {s ∈ Finset.range stop | (blank total).isUsed s = false} = Finset.range total := by
    ext s
    rw [Finset.mem_filter, isUsed_blank hmax, decide_eq_false_iff_not, Finset.mem_range,
      Finset.mem_range]
    omega
  rw [countFree_eq_card, hfree, Finset.card_range]

/-! ## Searches -/

theorem firstFree?_eq_some_iff {m : Bitmap} {first stop s : Nat} :
    m.firstFree? first stop = some s ↔ (first ≤ s ∧ s < stop ∧ m.isUsed s = false)
      ∧ ∀ t, first ≤ t → t < s → m.isUsed t = true := by
  simp only [firstFree?, List.find?_range'_eq_some, List.mem_range'_1, Bool.not_not,
    Bool.not_eq_true']
  constructor
  · rintro ⟨hfree, ⟨hfirst, hstop⟩, hleast⟩
    exact ⟨⟨hfirst, by omega, hfree⟩, hleast⟩
  · rintro ⟨⟨hfirst, hstop, hfree⟩, hleast⟩
    exact ⟨hfree, ⟨hfirst, by omega⟩, hleast⟩

theorem firstFree?_eq_none_iff {m : Bitmap} {first stop : Nat} :
    m.firstFree? first stop = none ↔ ∀ s, first ≤ s → s < stop → m.isUsed s = true := by
  simp only [firstFree?, List.find?_range'_eq_none, Bool.not_not]
  exact forall₂_congr fun s hs => by rw [show s < first + (stop - first) ↔ s < stop by omega]

/-- The free sectors from `first` on that are below `stop`, ascending. -/
def free (m : Bitmap) (first stop : Nat) : List Nat :=
  (List.range' first (stop - first)).filter fun s => !m.isUsed s

theorem mem_free {m : Bitmap} {first stop s : Nat} :
    s ∈ m.free first stop ↔ first ≤ s ∧ s < stop ∧ m.isUsed s = false := by
  simp only [free, List.mem_filter, List.mem_range'_1, Bool.not_eq_eq_eq_not, Bool.not_true]
  constructor
  · rintro ⟨⟨hfirst, hstop⟩, hfree⟩
    exact ⟨hfirst, by omega, hfree⟩
  · rintro ⟨hfirst, hstop, hfree⟩
    exact ⟨⟨hfirst, by omega⟩, hfree⟩

theorem nodup_free (m : Bitmap) (first stop : Nat) : (m.free first stop).Nodup :=
  (List.nodup_range' ..).filter _

theorem firstFree?_eq_head? (m : Bitmap) (first stop : Nat) :
    m.firstFree? first stop = (m.free first stop).head? := List.head?_filter.symm

theorem free_mark (m : Bitmap) (s first stop : Nat) :
    (m.mark s true).free first stop = (m.free first stop).filter (· != s) := by
  rw [free, free, List.filter_filter]
  refine List.filter_congr fun t _ => ?_
  rw [Bool.eq_iff_iff]
  simp [isUsed_mark_true_eq_false]

theorem free_append (m : Bitmap) {first mid : Nat} (h : first ≤ mid) (stop : Nat) :
    m.free first (min mid stop) ++ m.free mid stop = m.free first stop := by
  rw [free, free, free, ← List.filter_append]
  rcases Nat.le_total mid stop with hle | hle
  · have happend : List.range' first (mid - first)
        ++ List.range' (first + (mid - first)) (stop - mid)
        = List.range' first (mid - first + (stop - mid)) := List.range'_append_1
    have hsum : mid - first + (stop - mid) = stop - first := by omega
    rw [Nat.add_sub_cancel' h, hsum] at happend
    rw [Nat.min_eq_left hle, happend]
  · rw [Nat.min_eq_right hle, Nat.sub_eq_zero_of_le hle, List.range'_zero, List.append_nil]

/-! ## A bitmap as a set -/

/-- Bytes are given back by the bitmap that they describe. However sectors of a full bitmap are
marked, each has its last mark, a sector past the end counts as used, and the bytes change in the
bits of the marked sectors only. The free sectors are counted, and the least one in a range is
found if there is one. A blank bitmap has all sectors of the volume free. -/
theorem bitmap_as_set :
    (∀ b : Block bitmapSize, (ofBytes b.bytes).toBytes = b)
    ∧ (∀ m : Bitmap, m.bits.size = maxSectors → ∀ marks : List (Nat × Bool),
      (∀ s, (m.markEach marks).isUsed s
        = if s < maxSectors then (marks.reverse.lookup s).getD (m.isUsed s) else true)
      ∧ (∀ s < maxSectors, ((m.markEach marks).toBytes.byte (s / 8)).toNat.testBit (s % 8)
        = (marks.reverse.lookup s).getD ((m.toBytes.byte (s / 8)).toNat.testBit (s % 8)))
      ∧ (∀ stop, (m.markEach marks).countFree stop
        = {s ∈ Finset.range stop | (m.markEach marks).isUsed s = false}.card)
      ∧ ∀ first stop,
        (∀ s, (m.markEach marks).firstFree? first stop = some s
          ↔ (first ≤ s ∧ s < stop ∧ (m.markEach marks).isUsed s = false)
            ∧ ∀ t, first ≤ t → t < s → (m.markEach marks).isUsed t = true)
        ∧ ((m.markEach marks).firstFree? first stop = none
          ↔ ∀ s, first ≤ s → s < stop → (m.markEach marks).isUsed s = true))
    ∧ ∀ total ≤ maxSectors, (blank total).bits.size = maxSectors
      ∧ ∀ stop, total ≤ stop → (blank total).countFree stop = total := by
  refine ⟨toBytes_ofBytes, fun m hm marks => ⟨fun s => ?_, fun s hs => ?_, countFree_eq_card _,
    fun first stop => ⟨fun s => firstFree?_eq_some_iff, firstFree?_eq_none_iff⟩⟩,
    fun total hmax => ⟨size_blank total, fun stop => countFree_blank hmax⟩⟩
  · rw [isUsed_markEach, hm]
  · have hsize : (m.markEach marks).bits.size = maxSectors := (size_markEach m marks).trans hm
    rw [testBit_toBytes hsize hs, testBit_toBytes hm hs, isUsed_markEach, hm, if_pos hs]

/-- A sector that is marked three times, and one past the end that is freed. -/
theorem bitmap_as_set_remarked :
    (((blank 360).markEach [(9, true), (1600, false), (9, false), (0, true), (9, true)]).toBytes.byte
        1).toNat.testBit 1 = true
      ∧ ((blank 360).markEach [(9, true), (1600, false), (9, false), (0, true),
        (9, true)]).isUsed 1600 = true
      ∧ (blank 360).countFree 1600 = 360 := by
  obtain ⟨hused, hbytes, -⟩ := bitmap_as_set.2.1 (blank 360) (size_blank 360)
    [(9, true), (1600, false), (9, false), (0, true), (9, true)]
  have hblank := (bitmap_as_set.2.2 360 (by decide)).2 1600 (by decide)
  exact ⟨(hbytes 9 (by decide)).trans rfl, (hused 1600).trans rfl, hblank⟩

end TiBench.Volume.Bitmap
