import TiBench.Volume.Disk.Write
import TiBench.Proofs.Bitmap
import Mathlib.Data.List.Nodup

/-!
# First fit

Where a new file goes, told by the list of the free sectors: its descriptor record lies in the first
one, and its data in the next ones of the data area, or before that once there are none left.
-/

namespace TiBench.Volume.Disk

open scoped List

-- A search would otherwise be run when the functions that use it are unfolded.
attribute [local irreducible] Bitmap.firstFree?

variable {m : Bitmap} {total n : Nat}

/-! ## The order of the data sectors -/

theorem nextData?_eq (m : Bitmap) (total : Nat) :
    nextData? m total = match m.firstFree? firstDataSector total with
      | some s => some s
      | none => m.firstFree? firstFileSector (min firstDataSector total) := rfl

theorem takeData?_succ (total n : Nat) (m : Bitmap) (done : List Nat) :
    takeData? total (n + 1) m done = match nextData? m total with
      | none => none
      | some s => takeData? total n (m.mark s true) (s :: done) := rfl

/-- Sectors in the order in which they are taken for data: those of the data area first. -/
def dataOrder (sectors : List Nat) : List Nat :=
  sectors.filter (firstDataSector ≤ ·) ++ sectors.filter (· < firstDataSector)

theorem dataOrder_perm (sectors : List Nat) : dataOrder sectors ~ sectors := by
  have hlow : sectors.filter (· < firstDataSector)
      = sectors.filter fun s => !decide (firstDataSector ≤ s) :=
    List.filter_congr fun s _ => by simp only [← decide_not, Nat.not_le]
  rw [dataOrder, hlow]
  exact List.filter_append_perm _ _

theorem length_dataOrder (sectors : List Nat) : (dataOrder sectors).length = sectors.length :=
  (dataOrder_perm sectors).length_eq

theorem dataOrder_filter (p : Nat → Bool) (sectors : List Nat) :
    dataOrder (sectors.filter p) = (dataOrder sectors).filter p := by
  rw [dataOrder, dataOrder, List.filter_append, List.filter_comm p, List.filter_comm p]

theorem dataOrder_free (m : Bitmap) (total : Nat) :
    dataOrder (m.free firstFileSector total) = m.free firstDataSector total
      ++ m.free firstFileSector (min firstDataSector total) := by
  have hhigh : ∀ s ∈ m.free firstDataSector total, firstDataSector ≤ s :=
    fun s hs => (Bitmap.mem_free.1 hs).1
  have hlow : ∀ s ∈ m.free firstFileSector (min firstDataSector total), s < firstDataSector :=
    fun s hs => Nat.lt_of_lt_of_le (Bitmap.mem_free.1 hs).2.1 (Nat.min_le_left _ _)
  rw [← m.free_append (show firstFileSector ≤ firstDataSector by decide), dataOrder,
    List.filter_append, List.filter_append]
  congr 1
  · rw [List.filter_eq_nil_iff.2, List.nil_append, List.filter_eq_self.2]
    · simpa using hhigh
    · simpa using hlow
  · rw [List.filter_eq_self.2, List.filter_eq_nil_iff.2, List.append_nil]
    · simpa using hhigh
    · simpa using hlow

/-- The search for a data sector finds the first free one in that order. -/
theorem nextData?_eq_head? (m : Bitmap) (total : Nat) :
    nextData? m total = (dataOrder (m.free firstFileSector total)).head? := by
  rw [nextData?_eq, m.firstFree?_eq_head?, m.firstFree?_eq_head?, dataOrder_free, List.head?_append]
  cases (m.free firstDataSector total).head? <;> rfl

/-- Once the first sector is taken, the others are free, in the same order. -/
theorem dataOrder_free_mark {s : Nat} {rest : List Nat}
    (h : dataOrder (m.free firstFileSector total) = s :: rest) :
    dataOrder ((m.mark s true).free firstFileSector total) = rest := by
  have hnodup := (dataOrder_perm (m.free firstFileSector total)).nodup_iff.2 (m.nodup_free _ _)
  rw [h] at hnodup
  rw [Bitmap.free_mark, dataOrder_filter, h, ← hnodup.erase_eq_filter, List.erase_cons_head]

/-! ## The place of a new file -/

/-- Sectors are taken in their order until there are enough of them. -/
theorem takeData?_eq {order : List Nat} (h : dataOrder (m.free firstFileSector total) = order)
    (n : Nat) (done : List Nat) : takeData? total n m done =
      if n ≤ order.length then
        some (done.reverse ++ order.take n, m.markAll (order.take n) true)
      else none := by
  induction n generalizing m order done with
  | zero =>
      rw [if_pos (Nat.zero_le _), List.take_zero, List.append_nil]
      rfl
  | succ n ih =>
      rw [takeData?_succ, nextData?_eq_head?, h]
      cases order with
      | nil => rfl
      | cons s rest =>
          have hrest := ih (dataOrder_free_mark h) (s :: done)
          simpa [Bitmap.markAll] using hrest

/-- The free sectors for files, ascending. -/
def freeList (d : Disk) : List Nat := d.bitmap.free firstFileSector d.total

/-- The data sectors of a new file: the first of those that are free besides the first of all. -/
def firstFit (d : Disk) (n : Nat) : List Nat := (dataOrder d.freeList.tail).take n

variable {d : Disk}

/-- A file is placed if there are sectors enough, whatever lies between them. -/
theorem place?_eq (d : Disk) (n : Nat) : d.place? n = match d.freeList with
    | [] => none
    | s :: rest =>
      if n ≤ rest.length then
        some ⟨s, d.firstFit n, d.bitmap.markAll (s :: d.firstFit n) true⟩
      else none := by
  rw [place?, Bitmap.firstFree?_eq_head?, firstFit, freeList]
  cases hfree : d.bitmap.free firstFileSector d.total with
  | nil => rfl
  | cons s rest =>
      have hnodup := d.bitmap.nodup_free firstFileSector d.total
      rw [hfree] at hnodup
      have hrest : (d.bitmap.mark s true).free firstFileSector d.total = rest := by
        rw [Bitmap.free_mark, hfree, ← hnodup.erase_eq_filter, List.erase_cons_head]
      change (takeData? d.total n (d.bitmap.mark s true) []).bind _ = _
      rw [takeData?_eq (congrArg dataOrder hrest), length_dataOrder]
      dsimp only
      split <;> rfl

theorem exists_of_place? {p : Placement} (h : d.place? n = some p) :
    ∃ s rest, d.freeList = s :: rest ∧ n ≤ rest.length
      ∧ p = ⟨s, d.firstFit n, d.bitmap.markAll (s :: d.firstFit n) true⟩ := by
  rw [place?_eq] at h
  cases hfree : d.freeList with
  | nil =>
      rw [hfree] at h
      cases h
  | cons s rest =>
      rw [hfree] at h
      dsimp only at h
      split at h
      · rename_i hn
        exact ⟨s, rest, rfl, hn, (Option.some.inj h).symm⟩
      · cases h

theorem firstFit_of_place? {p : Placement} (h : d.place? n = some p) :
    d.freeList.head? = some p.descriptor ∧ p.data = d.firstFit n := by
  obtain ⟨s, rest, hfree, -, rfl⟩ := exists_of_place? h
  rw [hfree]
  exact ⟨rfl, rfl⟩

end TiBench.Volume.Disk
