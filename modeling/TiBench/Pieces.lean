/-!
# Cutting lists

Cutting a list at separators and into runs of one length. `chunks_eq_cons` unfolds a cut by one
piece, whatever the accumulator did.
-/

namespace TiBench.Pieces

variable {α : Type}

/-- The stretches between separators: `n` separators leave `n + 1` stretches, some perhaps empty. -/
def splitOn (sep : α → Bool) (xs : List α) : List (List α) :=
  xs.foldr
    (fun x pieces =>
      if sep x then [] :: pieces
      else match pieces with
        | [] => [[x]]
        | piece :: more => (x :: piece) :: more)
    [[]]

/-- The elements before the first separator and those after it, if there is a separator. -/
def splitOnce (sep : α → Bool) (xs : List α) : Option (List α × List α) :=
  match xs.dropWhile (fun x => !sep x) with
  | [] => none
  | _ :: after => some (xs.takeWhile (fun x => !sep x), after)

/-- What follows `start` at the start of a list, if it stands there. -/
def dropStart? [BEq α] : (start xs : List α) → Option (List α)
  | [], xs => some xs
  | _ :: _, [] => none
  | s :: start, x :: xs => if s == x then dropStart? start xs else none

theorem length_le_of_dropStart? [BEq α] {start xs rest : List α}
    (h : dropStart? start xs = some rest) : rest.length ≤ xs.length := by
  fun_induction dropStart? start xs with
  | case1 => simp_all
  | case2 => simp at h
  | case3 _ _ _ _ _ ih => exact Nat.le_succ_of_le (ih h)
  | case4 => simp at h

/-- `xs` with `new` in place of each run `p :: ps`, from the first one on. -/
def replaceAll [BEq α] (p : α) (ps new : List α) : (xs : List α) → List α
  | [] => []
  | x :: xs =>
    match _h : if p == x then dropStart? ps xs else none with
    | some rest => new ++ replaceAll p ps new rest
    | none => x :: replaceAll p ps new xs
termination_by xs => xs.length
decreasing_by
  · split at _h
    · exact Nat.lt_succ_of_le (length_le_of_dropStart? _h)
    · simp at _h
  · simp

/-- `xs` without the elements at its end that satisfy `p`. -/
def dropEndWhile (p : α → Bool) (xs : List α) : List α :=
  (xs.reverse.dropWhile p).reverse

/-- The pieces already cut, kept in reverse in `done`, followed by the pieces of `xs`. -/
def chunksAfter (n : Nat) (done : List (List α)) (xs : List α) : List (List α) :=
  if _ : 0 < n ∧ xs ≠ [] then chunksAfter n (xs.take n :: done) (xs.drop n) else done.reverse
termination_by xs.length
decreasing_by
  rename_i h
  have : 0 < xs.length := List.length_pos_iff.2 h.2
  simp only [List.length_drop]
  omega

/-- Consecutive pieces of `n` elements; the last one may be shorter, and none is empty. -/
def chunks (n : Nat) (xs : List α) : List (List α) := chunksAfter n [] xs

theorem chunksAfter_nil (n : Nat) (done : List (List α)) :
    chunksAfter n done [] = done.reverse := by
  rw [chunksAfter]
  simp

theorem chunksAfter_of_pos {n : Nat} {xs : List α} (hn : 0 < n) (hxs : xs ≠ [])
    (done : List (List α)) :
    chunksAfter n done xs = chunksAfter n (xs.take n :: done) (xs.drop n) := by
  rw [chunksAfter, dif_pos ⟨hn, hxs⟩]

theorem chunksAfter_eq {n : Nat} (hn : 0 < n) (done : List (List α)) (xs : List α) :
    chunksAfter n done xs = done.reverse ++ chunks n xs := by
  induction hlen : xs.length using Nat.strongRecOn generalizing done xs with
  | ind k ih =>
    by_cases hxs : xs = []
    · simp [hxs, chunks, chunksAfter_nil]
    · have : 0 < xs.length := List.length_pos_iff.2 hxs
      have hlt : (xs.drop n).length < k := by simp only [List.length_drop]; omega
      rw [chunks, chunksAfter_of_pos hn hxs, chunksAfter_of_pos hn hxs, ih _ hlt _ _ rfl,
        ih _ hlt [xs.take n] _ rfl]
      simp

@[simp] theorem chunks_nil (n : Nat) : chunks n ([] : List α) = [] := chunksAfter_nil n []

theorem chunks_eq_cons {n : Nat} {xs : List α} (hn : 0 < n) (hxs : xs ≠ []) :
    chunks n xs = xs.take n :: chunks n (xs.drop n) := by
  rw [chunks, chunksAfter_of_pos hn hxs, chunksAfter_eq hn]
  rfl

end TiBench.Pieces
