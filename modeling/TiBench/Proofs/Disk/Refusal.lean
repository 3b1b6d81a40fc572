import TiBench.Proofs.Disk.Exchange
import TiBench.Proofs.Disk.Operation

/-!
# When operations are refused

On a clean disk the reason for which an operation is refused, if it is, depends on the names of the
files, on which of them are protected, and on the sectors in use.
-/

namespace TiBench.Volume.Disk

variable {d d' : Disk}

theorem find_cases (hd : d.Consistent) (name : String) :
    (∃ e ∈ d.files, e.file.fileName = name ∧ d.find name = .ok e)
      ∨ name ∉ d.names ∧ d.find name = .error (.fileNotFound name) := by
  by_cases h : name ∈ d.names
  · obtain ⟨f, hf, rfl⟩ := mem_names.1 h
    obtain ⟨e, hfind⟩ := exists_find_of_mem hd hf
    obtain ⟨he, hname⟩ := mem_files_of_find hfind
    exact Or.inl ⟨e, he, hname, hfind⟩
  · exact Or.inr ⟨h, find_of_not_mem_names hd h⟩

theorem isOk_find_iff (hd : d.Consistent) (name : String) :
    (d.find name).isOk = true ↔ name ∈ d.names := by
  rcases find_cases hd name with ⟨e, he, hname, hfind⟩ | ⟨hname, hfind⟩
  · rw [hfind]; exact ⟨fun _ => mem_names.2 ⟨e, he, hname⟩, fun _ => rfl⟩
  · rw [hfind]; exact ⟨fun h => (nomatch h), fun h => absurd h hname⟩

/-- Why a file of `n` data sectors finds no room, if it does not. -/
def roomError? (d : Disk) (n : Nat) : Option VolumeError :=
  if Index.maxFiles ≤ d.names.length then some .directoryFull
  else match d.place? n with
    | none => some .diskFull
    | some p =>
      if Cluster.maxCount < (Cluster.ofSectors p.data).length then some .diskFull else none

/-- A file of new name finds room if there are sectors enough, and its data are not scattered over
too many runs of neighbours. -/
theorem roomError?_eq (hfiles : d.names.length < Index.maxFiles) (n : Nat) : d.roomError? n
    = if n + 1 ≤ d.freeList.length
        ∧ ((d.firstFit n).splitBy fun a b => a + 1 == b).length ≤ Cluster.maxCount then none
      else some .diskFull := by
  rw [roomError?, if_neg (Nat.not_le.2 hfiles), place?_eq]
  cases d.freeList with
  | nil => rfl
  | cons s rest =>
      dsimp only
      by_cases hn : n ≤ rest.length
      · rw [if_pos hn]
        dsimp only
        rw [Cluster.length_ofSectors]
        by_cases hruns : ((d.firstFit n).splitBy fun a b => a + 1 == b).length ≤ Cluster.maxCount
        · rw [if_neg (Nat.not_lt.2 hruns), if_pos ⟨Nat.succ_le_succ hn, hruns⟩]
        · rw [if_pos (Nat.not_le.1 hruns), if_neg fun h => hruns h.2]
      · rw [if_neg hn, if_neg fun h => hn (Nat.le_of_succ_le_succ h.1)]

/-- Why a file is not added, if it is not. -/
theorem error?_adding (hd : d.Consistent) (name : String) (f : FileFormat)
    (c : Except VolumeError Contents) : (d.adding name f c).error? = match c with
      | .error e => some e
      | .ok c => if packName name = none then some (.badName name)
        else if name ∈ d.names then some (.nameConflict name)
        else d.roomError? c.sectors.length := by
  cases c with
  | error e => rfl
  | ok c =>
      change (Change.ofExcept d (d.addFile name f c)).error? =
        if packName name = none then some (.badName name)
        else if name ∈ d.names then some (.nameConflict name)
        else d.roomError? c.sectors.length
      cases hname : packName name with
      | none => rw [addFile_of_packName hname, if_pos rfl]; rfl
      | some field =>
          have hmem : d.files.any (·.file.fileName == name) = true ↔ name ∈ d.names := by
            rw [List.any_eq_true, mem_names]
            simp only [beq_iff_eq]
          have hlen : d.names.length = d.files.length := List.length_map _
          rw [addFile_eq hname hd.entries_eq, if_neg (Option.some_ne_none field)]
          by_cases hnew : name ∈ d.names
          · rw [if_pos hnew, if_pos (hmem.2 hnew)]; rfl
          · rw [if_neg hnew, if_neg fun h => hnew (hmem.1 h), roomError?, hlen]
            split
            · rfl
            · cases d.place? c.sectors.length with
              | none => rfl
              | some p =>
                  dsimp only
                  split <;> rfl

theorem error?_delete_of_not_mem (hd : d.Consistent) {name : String} (h : name ∉ d.names) :
    (d.delete name).error? = some (.fileNotFound name) := by
  rw [delete, find_of_not_mem_names hd h]; rfl

theorem Clean.error?_delete (hd : d.Clean) {e : Entry} (he : e ∈ d.files) :
    (d.delete e.file.fileName).error?
      = if e.file.isProtected then some (.fileProtected e.file.fileName) else none := by
  rw [delete_eq (hd.find_of_mem he)]
  split <;> rfl

theorem error?_rename (hd : d.Consistent) (old new : String) : (d.rename old new).error? =
    if packName new = none then some (.badName new)
    else if old ∉ d.names then some (.fileNotFound old)
    else if old ≠ new ∧ new ∈ d.names then some (.nameConflict new)
    else none := by
  cases hname : packName new with
  | none => rw [rename, hname]; rfl
  | some field =>
      rw [if_neg (Option.some_ne_none field)]
      rcases find_cases hd old with ⟨e, he, hold, hfind⟩ | ⟨hold, hfind⟩
      · have hmem : old ∈ d.names := mem_names.2 ⟨e, he, hold⟩
        rw [rename_eq hname hfind, entries_putDescriptor hd.indexSector_not_mem_pointers hfind,
          if_neg (not_not_intro hmem)]
        have hconflict := and_congr_right_iff.2 fun _ : old ≠ new => isOk_find_iff hd new
        by_cases h : old ≠ new ∧ new ∈ d.names
        · rw [if_pos h, if_pos (hconflict.2 h)]; rfl
        · rw [if_neg h, if_neg fun h' => h (hconflict.1 h')]
      · rw [rename, hname, hfind, if_pos hold]; rfl

theorem error?_protect (hd : d.Consistent) (name : String) (on : Bool) :
    (d.protect name on).error? = if name ∈ d.names then none else some (.fileNotFound name) := by
  rcases find_cases hd name with ⟨e, he, hname, hfind⟩ | ⟨hname, hfind⟩
  · rw [protect_eq hfind, if_pos (mem_names.2 ⟨e, he, hname⟩)]
  · rw [protect, hfind, if_neg hname]; rfl

end TiBench.Volume.Disk
