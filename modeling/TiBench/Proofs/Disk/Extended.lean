import TiBench.Volume.Disk.Read
import TiBench.Proofs.Disk.Consistency
import TiBench.Proofs.Disk.Outcome

/-!
# Disks on a longer image

A volume on an image that goes on past the end of another one, with the same sectors before that
end. Both give the same results, but where a file lists a sector past the end of the shorter image.
-/

namespace TiBench.Volume.Disk

/-- The same volume on an image that begins with the sectors of the other. -/
structure Extends (v d : Disk) : Prop where
  info_eq : v.info = d.info
  count_le : d.image.count ≤ v.image.count
  peek_eq : ∀ n < d.image.count, v.peek n = d.peek n

/-- The result is that a data sector of a listed file lies past the end of the image. -/
def EndsBefore {α : Type} (d : Disk) (r : Except VolumeError α) : Prop :=
  ∃ e ∈ d.files, ∃ n ∈ e.file.sectors,
    d.image.count ≤ n ∧ r = .error (.image (.sectorAccess n))

/-- Two results that are the same, unless the image ends before the data of the first. -/
def Agree {α : Type} (d : Disk) (r r' : Except VolumeError α) : Prop := r' = r ∨ d.EndsBefore r

variable {α β : Type} {v d : Disk}

namespace Agree

theorem refl (d : Disk) (r : Except VolumeError α) : Agree d r r := Or.inl rfl

theorem bind {x x' : Except VolumeError α} {f f' : α → Except VolumeError β} (hx : Agree d x x')
    (hf : ∀ a, x = .ok a → Agree d (f a) (f' a)) : Agree d (x >>= f) (x' >>= f') := by
  rcases hx with rfl | ⟨e, he, n, hn, hle, rfl⟩
  · cases hx : x' with
    | error err => exact refl d _
    | ok a => exact hf a hx
  · exact Or.inr ⟨e, he, n, hn, hle, rfl⟩

theorem mapM {f f' : α → Except VolumeError β} {xs : List α}
    (h : ∀ x ∈ xs, Agree d (f x) (f' x)) : Agree d (xs.mapM f) (xs.mapM f') := by
  induction xs with
  | nil => exact refl d _
  | cons x xs ih =>
      rw [List.mapM_cons, List.mapM_cons]
      exact (h x List.mem_cons_self).bind fun _ _ =>
        (ih fun y hy => h y (List.mem_cons_of_mem _ hy)).bind fun _ _ => refl d _

end Agree

namespace Extends

/-! ## What does not read data -/

theorem total_eq (h : v.Extends d) : v.total = d.total := by rw [total, total, h.info_eq]

theorem bitmap_eq (h : v.Extends d) : v.bitmap = d.bitmap := by rw [bitmap, bitmap, h.info_eq]

theorem freeSectors_eq (h : v.Extends d) : v.freeSectors = d.freeSectors := by
  rw [freeSectors, freeSectors, h.bitmap_eq, h.total_eq]

theorem pointers_eq (h : v.Extends d) : v.pointers = d.pointers := by
  rw [pointers, pointers, h.peek_eq _ (lt_count_of_lt_total d.indexSector_lt_total)]

theorem entries_eq (h : v.Extends d) : v.entries = d.entries := by
  have hpointers : Index.pointers (v.sectorAt indexSector v.indexSector_lt_total).bytes
      = Index.pointers (d.sectorAt indexSector d.indexSector_lt_total).bytes := by
    rw [sectorAt_eq_peek, sectorAt_eq_peek]; exact h.pointers_eq
  rw [entries, entries, hpointers]
  refine Result.mapM_congr fun p _ => ?_
  by_cases hp : p < d.total
  · rw [dif_pos hp, dif_pos (h.total_eq ▸ hp), sectorAt_eq_peek, sectorAt_eq_peek,
      h.peek_eq p (lt_count_of_lt_total hp)]
  · rw [dif_neg hp, dif_neg (h.total_eq ▸ hp)]

theorem find_eq (h : v.Extends d) (name : String) : v.find name = d.find name := by
  rw [find, find, h.entries_eq]

theorem check_eq (h : v.Extends d) : v.check = d.check := by
  have howned : v.ownedBy = d.ownedBy := by
    funext e; rw [ownedBy, ownedBy, h.total_eq]
  rw [check, check, owned, owned, h.entries_eq, howned, h.total_eq, h.bitmap_eq]

/-! ## What reads data -/

end Extends

end TiBench.Volume.Disk
