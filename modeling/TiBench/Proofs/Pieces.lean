import TiBench.Pieces
import Mathlib.Data.List.TakeWhile

/-!
# Laws of cutting

What a list cut into runs of one length or at separators gives back, and where each piece comes
from.
-/

namespace TiBench.Pieces

variable {α : Type}

/-! ## Runs of one length -/

/-- A cut takes one piece off the front until nothing is left. -/
theorem chunks_induction {n : Nat} (hn : 0 < n) {motive : List α → Prop} (nil : motive [])
    (step : ∀ xs, xs ≠ [] → motive (xs.drop n) → motive xs) (xs : List α) : motive xs := by
  induction hlen : xs.length using Nat.strongRecOn generalizing xs with
  | ind k ih =>
      by_cases hxs : xs = []
      · rw [hxs]; exact nil
      · have hpos := List.length_pos_iff.2 hxs
        exact step xs hxs (ih _ (by rw [List.length_drop]; omega) _ rfl)

theorem flatten_chunks {n : Nat} (hn : 0 < n) (xs : List α) : (chunks n xs).flatten = xs := by
  induction xs using chunks_induction hn with
  | nil => rw [chunks_nil, List.flatten_nil]
  | step xs hxs ih =>
      rw [chunks_eq_cons hn hxs, List.flatten_cons, ih, List.take_append_drop]

theorem length_chunks {n : Nat} (hn : 0 < n) (xs : List α) :
    (chunks n xs).length = (xs.length + (n - 1)) / n := by
  induction xs using chunks_induction hn with
  | nil => rw [chunks_nil, List.length_nil, List.length_nil, Nat.div_eq_of_lt (by omega)]
  | step xs hxs ih =>
      have hpos := List.length_pos_iff.2 hxs
      rw [chunks_eq_cons hn hxs, List.length_cons, ih, List.length_drop]
      by_cases hle : xs.length ≤ n
      · rw [Nat.sub_eq_zero_of_le hle, Nat.div_eq_of_lt (by omega),
          Nat.div_eq_of_lt_le (k := 1) (by omega) (by omega)]
      · rw [show xs.length + (n - 1) = xs.length - n + (n - 1) + n by omega,
          Nat.add_div_right _ hn]

/-- The piece at a place, which is there if the pieces before it do not hold all elements. -/
theorem getElem?_chunks {n : Nat} (hn : 0 < n) (xs : List α) (i : Nat) :
    (chunks n xs)[i]? = if i * n < xs.length then some ((xs.drop (i * n)).take n) else none := by
  induction xs using chunks_induction hn generalizing i with
  | nil => simp
  | step xs hxs ih =>
      have hpos := List.length_pos_iff.2 hxs
      rw [chunks_eq_cons hn hxs]
      cases i with
      | zero => rw [List.getElem?_cons_zero, Nat.zero_mul, if_pos hpos, List.drop_zero]
      | succ i =>
          rw [List.getElem?_cons_succ, ih, List.length_drop, List.drop_drop, Nat.succ_mul,
            Nat.add_comm n]
          by_cases hlt : i * n + n < xs.length
          · rw [if_pos hlt, if_pos (by omega)]
          · rw [if_neg hlt, if_neg (by omega)]

theorem length_le_of_mem_chunks {n : Nat} (hn : 0 < n) {xs piece : List α}
    (h : piece ∈ chunks n xs) : piece.length ≤ n := by
  obtain ⟨i, hi⟩ := List.mem_iff_getElem?.1 h
  rw [getElem?_chunks hn] at hi
  split at hi
  · rw [← Option.some.inj hi]; exact List.length_take_le _ _
  · cases hi

/-- A list of whole pieces is cut into whole pieces. -/
theorem length_eq_of_mem_chunks {n k : Nat} (hn : 0 < n) {xs piece : List α}
    (hxs : xs.length = k * n) (h : piece ∈ chunks n xs) : piece.length = n := by
  obtain ⟨i, hi⟩ := List.mem_iff_getElem?.1 h
  rw [getElem?_chunks hn] at hi
  split at hi
  · rename_i hlt
    have hik : i < k := Nat.lt_of_mul_lt_mul_right (hxs ▸ hlt)
    have hle : (i + 1) * n ≤ k * n := Nat.mul_le_mul_right n hik
    rw [Nat.succ_mul] at hle
    rw [← Option.some.inj hi, List.length_take_of_le (by rw [List.length_drop]; omega)]
  · cases hi

/-- Pieces of one length that were joined are cut apart again. -/
theorem chunks_flatten {n : Nat} (hn : 0 < n) {pieces : List (List α)}
    (h : ∀ p ∈ pieces, p.length = n) : chunks n pieces.flatten = pieces := by
  induction pieces with
  | nil => rw [List.flatten_nil, chunks_nil]
  | cons p pieces ih =>
      have hp : p.length = n := h p List.mem_cons_self
      have hne : (p :: pieces).flatten ≠ [] := by
        rw [List.flatten_cons]
        exact fun h0 => Nat.ne_of_gt hn (hp ▸ congrArg List.length (List.append_eq_nil_iff.1 h0).1)
      rw [chunks_eq_cons hn hne, List.flatten_cons, List.take_left' hp, List.drop_left' hp,
        ih fun q hq => h q (List.mem_cons_of_mem _ hq)]

/-- Where an element of joined pieces of one length comes from. -/
theorem getElem?_flatten {n : Nat} (hn : 0 < n) {pieces : List (List α)}
    (h : ∀ p ∈ pieces, p.length = n) (i : Nat) :
    pieces.flatten[i]? = pieces[i / n]?.bind (·[i % n]?) := by
  have hmod : i % n < n := Nat.mod_lt i hn
  have hi : i / n * n + i % n = i := Nat.div_add_mod' i n
  conv => rhs; rw [← chunks_flatten hn h]
  rw [getElem?_chunks hn]
  split
  · rw [Option.bind_some, List.getElem?_take_of_lt hmod, List.getElem?_drop, hi]
  · rw [Option.bind_none, List.getElem?_eq_none (by omega)]

/-- Whole pieces are cut apart from what follows them. -/
theorem chunks_append {n k : Nat} (hn : 0 < n) {xs : List α} (h : xs.length = k * n)
    (ys : List α) : chunks n (xs ++ ys) = chunks n xs ++ chunks n ys := by
  induction k generalizing xs with
  | zero =>
      rw [Nat.zero_mul, List.length_eq_zero_iff] at h
      rw [h, chunks_nil, List.nil_append, List.nil_append]
  | succ k ih =>
      have hle : n ≤ xs.length := by rw [h, Nat.succ_mul]; omega
      have hxs : xs ≠ [] := List.length_pos_iff.1 (Nat.lt_of_lt_of_le hn hle)
      have hdrop : (xs.drop n).length = k * n := by rw [List.length_drop, h, Nat.succ_mul]; omega
      rw [chunks_eq_cons hn (List.append_ne_nil_of_left_ne_nil hxs ys), chunks_eq_cons hn hxs,
        List.take_append_of_le_length hle, List.drop_append_of_le_length hle, ih hdrop,
        List.cons_append]

theorem chunks_of_length_le {n : Nat} {xs : List α} (hxs : xs ≠ []) (h : xs.length ≤ n) :
    chunks n xs = [xs] := by
  have hn : 0 < n := Nat.lt_of_lt_of_le (List.length_pos_iff.2 hxs) h
  rw [chunks_eq_cons hn hxs, List.take_of_length_le h, List.drop_eq_nil_of_le h, chunks_nil]

/-- Joined pieces are cut apart again if all are whole but the last, which is not empty. -/
theorem chunks_flatten_of_last {n : Nat} (hn : 0 < n) {pieces : List (List α)}
    (hwhole : ∀ p ∈ pieces.dropLast, p.length = n)
    (hlast : ∀ p, pieces.getLast? = some p → 1 ≤ p.length ∧ p.length ≤ n) :
    chunks n pieces.flatten = pieces := by
  rcases List.eq_nil_or_concat pieces with rfl | ⟨before, p, rfl⟩
  · exact chunks_nil n
  · rw [List.concat_eq_append] at hwhole hlast ⊢
    rw [List.dropLast_concat] at hwhole
    obtain ⟨hpos, hle⟩ := hlast p List.getLast?_concat
    have hlen : before.flatten.length = before.length * n := by
      rw [List.length_flatten, List.map_eq_replicate_iff.2 hwhole, List.sum_replicate_nat]
    rw [List.flatten_append, List.flatten_singleton, chunks_append hn hlen, chunks_flatten hn hwhole,
      chunks_of_length_le (List.length_pos_iff.1 hpos) hle]

theorem length_pos_of_mem_chunks {n : Nat} (hn : 0 < n) {xs piece : List α}
    (h : piece ∈ chunks n xs) : 0 < piece.length := by
  obtain ⟨i, hi⟩ := List.mem_iff_getElem?.1 h
  rw [getElem?_chunks hn] at hi
  split at hi
  · rw [← Option.some.inj hi, List.length_take, List.length_drop]
    omega
  · cases hi

/-- A piece that another one follows is whole. -/
theorem length_eq_of_mem_dropLast_chunks {n : Nat} (hn : 0 < n) {xs piece : List α}
    (h : piece ∈ (chunks n xs).dropLast) : piece.length = n := by
  induction xs using chunks_induction hn with
  | nil => rw [chunks_nil] at h; cases h
  | step xs hxs ih =>
      rw [chunks_eq_cons hn hxs] at h
      by_cases hle : xs.length ≤ n
      · rw [List.drop_eq_nil_of_le hle, chunks_nil] at h
        cases h
      · have hmore : chunks n (xs.drop n) ≠ [] := by
          rw [chunks_eq_cons hn (by rw [Ne, List.drop_eq_nil_iff]; exact hle)]
          exact List.cons_ne_nil _ _
        rw [List.dropLast_cons_of_ne_nil hmore, List.mem_cons] at h
        rcases h with rfl | h
        · exact List.length_take_of_le (Nat.le_of_not_le hle)
        · exact ih h

theorem take_chunks {n : Nat} (hn : 0 < n) (k : Nat) (xs : List α) :
    (chunks n xs).take k = chunks n (xs.take (k * n)) := by
  induction k generalizing xs with
  | zero => rw [Nat.zero_mul, List.take_zero, List.take_zero, chunks_nil]
  | succ k ih =>
      by_cases hxs : xs = []
      · rw [hxs, chunks_nil, List.take_nil, List.take_nil, chunks_nil]
      · have htake : xs.take ((k + 1) * n) ≠ [] := by
          rw [Ne, List.take_eq_nil_iff, not_or]
          exact ⟨Nat.ne_of_gt (Nat.mul_pos (Nat.succ_pos k) hn), hxs⟩
        have hle : n ≤ (k + 1) * n := Nat.le_mul_of_pos_left n (Nat.succ_pos k)
        rw [chunks_eq_cons hn hxs, List.take_succ_cons, ih, chunks_eq_cons hn htake,
          List.take_take, Nat.min_eq_left hle, List.drop_take, Nat.succ_mul, Nat.add_sub_cancel]

/-- One element more goes to the last piece if that is not whole yet, else begins another. -/
theorem chunks_concat {n : Nat} (hn : 0 < n) (xs : List α) (x : α) : ∃ pieces last,
    last.length = xs.length % n ∧ chunks n (xs ++ [x]) = pieces ++ [last ++ [x]]
      ∧ chunks n xs = if last = [] then pieces else pieces ++ [last] := by
  have hle := Nat.div_mul_le_self xs.length n
  have hlast : (xs.drop (xs.length / n * n)).length = xs.length % n := by
    rw [List.length_drop, Nat.mod_eq_sub_div_mul]
  have hlt : xs.length % n < n := Nat.mod_lt _ hn
  have hwhole := chunks_append hn (List.length_take_of_le hle)
  refine ⟨chunks n (xs.take (xs.length / n * n)), xs.drop (xs.length / n * n), hlast, ?_, ?_⟩
  · conv => lhs; rw [← List.take_append_drop (xs.length / n * n) xs, List.append_assoc]
    rw [hwhole, chunks_of_length_le (List.append_ne_nil_of_right_ne_nil _ (List.cons_ne_nil _ _))]
    rw [List.length_append, hlast]; exact hlt
  · conv => lhs; rw [← List.take_append_drop (xs.length / n * n) xs]
    rw [hwhole]
    split
    · rename_i hnil
      rw [hnil, chunks_nil, List.append_nil]
    · rename_i hne
      rw [chunks_of_length_le hne (by rw [hlast]; exact Nat.le_of_lt hlt)]

/-- Another piece in one place of joined pieces of one length. -/
theorem flatten_set {n i : Nat} {pieces : List (List α)} (h : ∀ p ∈ pieces, p.length = n)
    (hi : i < pieces.length) (p : List α) : (pieces.set i p).flatten
      = pieces.flatten.take (i * n) ++ p ++ pieces.flatten.drop ((i + 1) * n) := by
  induction pieces generalizing i with
  | nil => cases hi
  | cons q pieces ih =>
      have hq : q.length = n := h q List.mem_cons_self
      cases i with
      | zero =>
          rw [List.set_cons_zero, List.flatten_cons, List.flatten_cons, Nat.zero_mul,
            List.take_zero, List.nil_append, Nat.zero_add, Nat.one_mul, List.drop_left' hq]
      | succ i =>
          have htake : (q ++ pieces.flatten).take ((i + 1) * n)
              = q ++ pieces.flatten.take (i * n) := by
            rw [Nat.succ_mul, Nat.add_comm, ← hq, List.take_length_add_append]
          have hdrop : (q ++ pieces.flatten).drop ((i + 1 + 1) * n)
              = pieces.flatten.drop ((i + 1) * n) := by
            rw [Nat.succ_mul, Nat.add_comm, ← hq, List.drop_length_add_append]
          rw [List.set_cons_succ, List.flatten_cons, List.flatten_cons, htake, hdrop,
            ih (fun r hr => h r (List.mem_cons_of_mem _ hr)) (Nat.lt_of_succ_lt_succ hi),
            List.append_assoc, List.append_assoc, List.append_assoc]

/-! ## Separators -/

theorem splitOn_cons_of_sep {sep : α → Bool} {x : α} (h : sep x = true) (xs : List α) :
    splitOn sep (x :: xs) = [] :: splitOn sep xs := by
  simp only [splitOn, List.foldr_cons, h, if_true]

/-- A cut at separators has one stretch at least. -/
theorem splitOn_eq_cons (sep : α → Bool) (xs : List α) :
    ∃ piece more, splitOn sep xs = piece :: more := by
  induction xs with
  | nil => exact ⟨[], [], rfl⟩
  | cons x xs ih =>
      obtain ⟨piece, more, ih⟩ := ih
      by_cases hx : sep x = true
      · exact ⟨[], _, splitOn_cons_of_sep hx xs⟩
      · refine ⟨x :: piece, more, ?_⟩
        simp only [splitOn] at ih ⊢
        simp only [List.foldr_cons, ih, if_neg hx]

theorem splitOn_cons_of_not_sep {p : α → Bool} {x : α} (h : p x = false) {xs piece : List α}
    {more : List (List α)} (hxs : splitOn p xs = piece :: more) :
    splitOn p (x :: xs) = (x :: piece) :: more := by
  simp only [splitOn] at hxs ⊢
  simp only [List.foldr_cons, hxs, h, Bool.false_eq_true, if_false]

/-- With a separator after each stretch, the stretches are the list with a separator after it. -/
theorem flatMap_splitOn [BEq α] [LawfulBEq α] (c : α) (xs : List α) :
    (splitOn (· == c) xs).flatMap (· ++ [c]) = xs ++ [c] := by
  induction xs with
  | nil => rfl
  | cons x xs ih =>
      by_cases hx : x = c
      · rw [splitOn_cons_of_sep (by rw [hx]; exact beq_self_eq_true c), List.flatMap_cons, ih, hx]
        rfl
      · obtain ⟨piece, more, hxs⟩ := splitOn_eq_cons (· == c) xs
        rw [splitOn_cons_of_not_sep (p := (· == c)) (beq_false_of_ne hx) hxs, List.flatMap_cons]
        rw [hxs, List.flatMap_cons] at ih
        rw [List.cons_append, List.cons_append, ih, List.cons_append]

/-- No stretch holds a separator. -/
theorem not_sep_of_mem_splitOn {sep : α → Bool} {xs piece : List α} (h : piece ∈ splitOn sep xs) :
    ∀ x ∈ piece, sep x = false := by
  induction xs generalizing piece with
  | nil =>
      rw [splitOn, List.foldr_nil, List.mem_singleton] at h
      rw [h]; exact fun _ hx => absurd hx List.not_mem_nil
  | cons x xs ih =>
      by_cases hx : sep x = true
      · rw [splitOn_cons_of_sep hx, List.mem_cons] at h
        rcases h with rfl | h
        · exact fun _ hx => absurd hx List.not_mem_nil
        · exact ih h
      · have hx' : sep x = false := Bool.not_eq_true _ ▸ hx
        obtain ⟨first, more, hxs⟩ := splitOn_eq_cons sep xs
        rw [splitOn_cons_of_not_sep hx' hxs, List.mem_cons] at h
        rw [hxs] at ih
        rcases h with rfl | h
        · intro y hy
          rcases List.mem_cons.1 hy with rfl | hy
          · exact hx'
          · exact ih List.mem_cons_self y hy
        · exact ih (List.mem_cons_of_mem _ h)

theorem splitOn_append_cons {sep : α → Bool} {x : α} (h : sep x = true) (xs ys : List α) :
    splitOn sep (xs ++ x :: ys) = splitOn sep xs ++ splitOn sep ys := by
  induction xs with
  | nil => rw [List.nil_append, splitOn_cons_of_sep h]; rfl
  | cons y xs ih =>
      rw [List.cons_append]
      cases hy : sep y with
      | true => rw [splitOn_cons_of_sep hy, splitOn_cons_of_sep hy, ih, List.cons_append]
      | false =>
          obtain ⟨piece, more, hxs⟩ := splitOn_eq_cons sep xs
          rw [hxs, List.cons_append] at ih
          rw [splitOn_cons_of_not_sep hy ih, splitOn_cons_of_not_sep hy hxs, List.cons_append]

theorem splitOn_eq_singleton {sep : α → Bool} {xs : List α} (h : ∀ x ∈ xs, sep x = false) :
    splitOn sep xs = [xs] := by
  induction xs with
  | nil => rfl
  | cons x xs ih =>
      exact splitOn_cons_of_not_sep (h x List.mem_cons_self)
        (ih fun y hy => h y (List.mem_cons_of_mem _ hy))

/-- Stretches with a separator after each are cut apart again, with an empty one at the end. -/
theorem splitOn_flatMap {sep : α → Bool} {c : α} (hc : sep c = true) {pieces : List (List α)}
    (h : ∀ p ∈ pieces, ∀ x ∈ p, sep x = false) :
    splitOn sep (pieces.flatMap (· ++ [c])) = pieces ++ [[]] := by
  induction pieces with
  | nil => rfl
  | cons p pieces ih =>
      rw [List.flatMap_cons, List.append_assoc, List.singleton_append, splitOn_append_cons hc,
        splitOn_eq_singleton (h p List.mem_cons_self), ih fun q hq => h q (List.mem_cons_of_mem _ hq)]
      rfl

theorem splitOn_eq_splitOnP (sep : α → Bool) (xs : List α) : splitOn sep xs = xs.splitOnP sep := by
  induction xs with
  | nil => rfl
  | cons x xs ih =>
      rw [List.splitOnP_cons_eq_if_modifyHead, ← ih]
      split
      · rename_i hx
        exact splitOn_cons_of_sep hx xs
      · rename_i hx
        obtain ⟨piece, more, hxs⟩ := splitOn_eq_cons sep xs
        rw [splitOn_cons_of_not_sep (Bool.not_eq_true _ ▸ hx) hxs, hxs]
        rfl

theorem splitOn_intercalate [DecidableEq α] {x : α} {pieces : List (List α)} (hne : pieces ≠ [])
    (h : ∀ p ∈ pieces, x ∉ p) : splitOn (· == x) ([x].intercalate pieces) = pieces := by
  rw [splitOn_eq_splitOnP, ← List.splitOn_eq_splitOnP]
  exact List.splitOn_intercalate x h hne

theorem intercalate_splitOn [DecidableEq α] (x : α) (xs : List α) :
    [x].intercalate (splitOn (· == x) xs) = xs := by
  rw [splitOn_eq_splitOnP, ← List.splitOn_eq_splitOnP, List.intercalate_splitOn]

theorem splitOnce_eq_some_iff {sep : α → Bool} {xs before after : List α} :
    splitOnce sep xs = some (before, after) ↔ ∃ x, xs = before ++ x :: after ∧ sep x = true
      ∧ ∀ y ∈ before, sep y = false := by
  have hjoin := List.takeWhile_append_dropWhile (p := fun x => !sep x) (l := xs)
  rw [splitOnce]
  constructor
  · intro h
    split at h
    · cases h
    · rename_i x rest hrest
      cases h
      have hx := List.head?_dropWhile_not (fun x => !sep x) xs
      rw [hrest] at hx hjoin
      refine ⟨x, hjoin.symm, by simpa using hx, fun y hy => ?_⟩
      simpa using List.mem_takeWhile_imp hy
  · rintro ⟨x, rfl, hx, hbefore⟩
    have hkept : ∀ y ∈ before, (!sep y) = true := fun y hy => by rw [hbefore y hy]; rfl
    have hstop : (!sep x) = false := by rw [hx]; rfl
    rw [List.dropWhile_append_of_pos hkept, List.takeWhile_append_of_pos hkept]
    simp [hstop]

theorem splitOnce_eq_none_iff {sep : α → Bool} {xs : List α} :
    splitOnce sep xs = none ↔ ∀ x ∈ xs, sep x = false := by
  rw [splitOnce]
  cases hdrop : xs.dropWhile (fun x => !sep x) with
  | nil => simpa [List.dropWhile_eq_nil_iff] using hdrop
  | cons x rest =>
      simp only [reduceCtorEq, false_iff]
      intro h
      have hnil : xs.dropWhile (fun x => !sep x) = [] :=
        List.dropWhile_eq_nil_iff.2 (by simpa using h)
      rw [hnil] at hdrop
      cases hdrop

/-! ## Runs that are replaced -/

/-- Two lists cut at the first place of one element are equal part by part. -/
theorem append_cons_inj {x : α} {xs ys rest rest' : List α} (hxs : x ∉ xs) (hys : x ∉ ys)
    (h : xs ++ x :: rest = ys ++ x :: rest') : xs = ys ∧ rest = rest' := by
  induction xs generalizing ys with
  | nil =>
      cases ys with
      | nil => exact ⟨rfl, (List.cons.inj h).2⟩
      | cons z ys => exact absurd ((List.cons.inj h).1 ▸ List.mem_cons_self) hys
  | cons y xs ih =>
      cases ys with
      | nil => exact absurd ((List.cons.inj h).1 ▸ List.mem_cons_self) hxs
      | cons z ys =>
          rw [List.mem_cons, not_or] at hxs hys
          rw [List.cons_append, List.cons_append, List.cons.injEq] at h
          obtain ⟨hlist, hrest⟩ := ih hxs.2 hys.2 h.2
          exact ⟨by rw [h.1, hlist], hrest⟩

section

variable [BEq α] [LawfulBEq α]

theorem dropStart?_eq_some {start xs rest : List α} :
    dropStart? start xs = some rest ↔ xs = start ++ rest := by
  induction start generalizing xs with
  | nil => simp [dropStart?]
  | cons s start ih =>
      cases xs with
      | nil => simp [dropStart?]
      | cons x xs =>
          rw [dropStart?]
          split
          · rename_i hsx
            simp [ih, eq_of_beq hsx]
          · rename_i hsx
            have hne : x ≠ s := fun heq => hsx (by simp [heq])
            simp [hne]

/-- A run that stands at the start is replaced, and the rest is looked through after it. -/
theorem replaceAll_append (p : α) (ps new rest : List α) :
    replaceAll p ps new (p :: (ps ++ rest)) = new ++ replaceAll p ps new rest := by
  have hstart : dropStart? ps (ps ++ rest) = some rest := dropStart?_eq_some.2 rfl
  rw [replaceAll]
  split
  · rename_i rest' hrest
    rw [if_pos (beq_self_eq_true p), hstart] at hrest
    rw [Option.some.inj hrest]
  · rename_i hnone
    rw [if_pos (beq_self_eq_true p), hstart] at hnone
    cases hnone

/-- Where no run starts an element stays. -/
theorem replaceAll_cons {p x : α} {ps xs : List α} (h : ¬p :: ps <+: x :: xs) (new : List α) :
    replaceAll p ps new (x :: xs) = x :: replaceAll p ps new xs := by
  rw [replaceAll]
  split
  · rename_i rest hrest
    split at hrest
    · rename_i hpx
      refine absurd ⟨rest, ?_⟩ h
      rw [dropStart?_eq_some.1 hrest, eq_of_beq hpx]
      rfl
    · cases hrest
  · rfl

end

/-! ## Elements before others -/

section

variable [DecidableEq α] {a b x : α}

/-- `xs` without each `a` that stands directly before a `b`. -/
def dropBefore (a b : α) : List α → List α
  | [] => []
  | x :: xs => if x = a ∧ xs.head? = some b then dropBefore a b xs else x :: dropBefore a b xs

theorem dropBefore_cons {xs : List α} (h : ¬(x = a ∧ xs.head? = some b)) :
    dropBefore a b (x :: xs) = x :: dropBefore a b xs := by
  rw [dropBefore, if_neg h]

theorem dropBefore_pair (a b : α) (xs : List α) :
    dropBefore a b (a :: b :: xs) = dropBefore a b (b :: xs) := by
  rw [dropBefore, if_pos ⟨rfl, rfl⟩]

end

/-! ## Elements before the first that is not kept -/

/-- What is taken from the front of a list is its elements up to some place, where the next one is
not kept. -/
theorem exists_takeWhile_range (p : α → Bool) (f : Nat → α) (m : Nat) : ∃ n ≤ m,
    ((List.range m).map f).takeWhile p = (List.range n).map f ∧ (n < m → p (f n) = false) := by
  induction m with
  | zero => exact ⟨0, Nat.le_refl 0, rfl, nofun⟩
  | succ m ih =>
      obtain ⟨n, hn, htake, hstop⟩ := ih
      rw [List.range_succ, List.map_append, List.takeWhile_append, htake, List.length_map,
        List.length_map, List.length_range, List.length_range]
      by_cases hnm : n = m
      · cases hp : p (f m) with
        | true => exact ⟨m + 1, Nat.le_refl _, by simp [hnm, hp, List.range_succ], by omega⟩
        | false => exact ⟨m, Nat.le_succ m, by simp [hnm, hp], fun _ => hp⟩
      · exact ⟨n, Nat.le_succ_of_le hn, by rw [if_neg hnm], fun _ => hstop (by omega)⟩

/-! ## Elements at the end -/

theorem dropEndWhile_append_replicate {p : α → Bool} {a : α} (h : p a = true) (xs : List α)
    (k : Nat) : dropEndWhile p (xs ++ List.replicate k a) = dropEndWhile p xs := by
  induction k with
  | zero => rw [List.replicate_zero, List.append_nil]
  | succ k ih =>
      rw [← ih]
      simp only [dropEndWhile, List.reverse_append, List.reverse_replicate]
      rw [List.replicate_succ, List.cons_append, List.dropWhile_cons_of_pos h]

theorem dropEndWhile_eq_self {p : α → Bool} {xs : List α}
    (h : ∀ x, xs.getLast? = some x → p x = false) : dropEndWhile p xs = xs := by
  rw [dropEndWhile]
  cases hr : xs.reverse with
  | nil => rw [List.dropWhile_nil, List.reverse_nil, List.reverse_eq_nil_iff.1 hr]
  | cons x rest =>
      have hx : p x = false := h x (by rw [← List.head?_reverse, hr]; rfl)
      rw [List.dropWhile_cons_of_neg (by rw [hx]; exact Bool.false_ne_true), ← hr,
        List.reverse_reverse]

/-- What is dropped at the end is a run of the element, and what is left does not end in it. -/
theorem dropEndWhile_beq [BEq α] [LawfulBEq α] (a : α) (xs : List α) :
    (∃ k, xs = dropEndWhile (· == a) xs ++ List.replicate k a)
      ∧ (dropEndWhile (· == a) xs).getLast? ≠ some a := by
  have hrun : (xs.reverse.takeWhile (· == a)).reverse
      = List.replicate (xs.reverse.takeWhile (· == a)).length a := by
    rw [List.eq_replicate_iff, List.length_reverse]
    refine ⟨rfl, fun x hx => beq_iff_eq.1 ?_⟩
    exact List.all_eq_true.1 List.all_takeWhile x (List.mem_reverse.1 hx)
  refine ⟨⟨(xs.reverse.takeWhile (· == a)).length, ?_⟩, fun hlast => ?_⟩
  · rw [← hrun, dropEndWhile, ← List.reverse_append, List.takeWhile_append_dropWhile,
      List.reverse_reverse]
  · rw [dropEndWhile, List.getLast?_reverse] at hlast
    have hnot := List.head?_dropWhile_not (· == a) xs.reverse
    rw [hlast] at hnot
    exact absurd (beq_self_eq_true a) (Bool.not_eq_true _ ▸ hnot)

theorem dropEndWhile_concat (p : α → Bool) (xs : List α) (x : α) :
    dropEndWhile p (xs ++ [x]) = if p x then dropEndWhile p xs else xs ++ [x] := by
  rw [dropEndWhile, List.reverse_append, List.reverse_singleton, List.singleton_append,
    List.dropWhile_cons]
  split
  · rfl
  · rw [List.reverse_cons, List.reverse_reverse]

theorem isPrefix_dropEndWhile (p : α → Bool) (xs : List α) : dropEndWhile p xs <+: xs := by
  have hsuffix := List.dropWhile_suffix p (l := xs.reverse)
  rwa [← List.reverse_prefix, List.reverse_reverse] at hsuffix

end TiBench.Pieces
