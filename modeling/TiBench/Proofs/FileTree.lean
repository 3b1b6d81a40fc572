import TiBench.FileTree
import TiBench.Proofs.Result

/-!
# Laws of file trees

Writing over a file changes where no path leads, and what is read from no other file.
-/

namespace TiBench.FileTree

variable {t : FileTree} {p : Path} {old : Bytes}

theorem ne_root_of_file (h : t.get? p = some (.file old)) : p ≠ [] := by
  rintro rfl
  rw [get?, if_pos rfl] at h; cases h

theorem walk_put_file (h : t.get? p = some (.file old)) (new : Bytes) (q : Path)
    (names : List String) : (t.put p (.file new)).walk q names = t.walk q names := by
  induction names generalizing q with
  | nil => rfl
  | cons name names ih =>
      by_cases hq : q = p
      · rw [walk, walk, hq, get?_put_self t _ (ne_root_of_file h), h]
      · rw [walk, walk, get?_put_of_ne t _ hq]
        simp only [ih]

theorem locate_put_file (h : t.get? p = some (.file old)) (new : Bytes) (cwd : Path)
    (text : String) : (t.put p (.file new)).locate cwd text = t.locate cwd text := by
  rw [locate, locate]
  simp only [walk_put_file h]

/-- Writing a file changes nothing but what its path leads to. -/
theorem get?_of_write {cwd : Path} {text : String} {data : Bytes} {t' : FileTree}
    (h : t.write cwd text data = .ok t') {q : Path} (hq : t.locate cwd text ≠ .ok q) :
    t'.get? q = t.get? q := by
  obtain ⟨p, hp, h⟩ := Result.bind_eq_ok.1 h
  have hne : q ≠ p := fun heq => hq (heq ▸ hp)
  have hput : t' = t.put p (.file data) := by
    cases hget : t.get? p with
    | none =>
        simp only [hget] at h
        split at h
        · cases h
        · exact (Except.ok.inj h).symm
    | some n =>
        cases n with
        | directory => simp only [hget] at h; cases h
        | file old =>
            simp only [hget] at h
            split at h
            · cases h
            · exact (Except.ok.inj h).symm
  rw [hput, get?_put_of_ne t _ hne]

/-- The path as text leads to the file at `p`. -/
def LeadsTo (t : FileTree) (cwd : Path) (text : String) (p : Path) : Prop :=
  t.locate cwd text = .ok p ∧ asksDirectory text = false

variable {cwd : Path} {text : String}

theorem LeadsTo.put_file (h : t.LeadsTo cwd text p) {q : Path} (hq : t.get? q = some (.file old))
    (new : Bytes) : (t.put q (.file new)).LeadsTo cwd text p :=
  ⟨(locate_put_file hq new cwd text).trans h.1, h.2⟩

theorem LeadsTo.read_eq (h : t.LeadsTo cwd text p) (hp : t.get? p = some (.file old)) :
    t.read cwd text = .ok old := by
  rw [read, h.1, Result.ok_bind, hp]
  dsimp only
  rw [if_neg (Bool.not_eq_true _ ▸ h.2)]

theorem LeadsTo.write_eq (h : t.LeadsTo cwd text p) (hp : t.get? p = some (.file old))
    (new : Bytes) : t.write cwd text new = .ok (t.put p (.file new)) := by
  rw [write, h.1, Result.ok_bind, hp]
  dsimp only
  rw [if_neg (Bool.not_eq_true _ ▸ h.2)]

end TiBench.FileTree
