import TiBench.Proofs.Disk.Changes

/-!
# What the operations do

Each operation is refused and leaves the disk as it was, or changes it in one of the three ways.
-/

namespace TiBench.Volume

namespace Change

theorem ofExcept_cases (old : Disk) (r : Except VolumeError Disk) :
    (∃ new, r = .ok new ∧ ofExcept old r = ⟨new, none⟩)
      ∨ ∃ e, r = .error e ∧ ofExcept old r = refused old e := by
  cases r with
  | ok new => exact Or.inl ⟨new, rfl, rfl⟩
  | error e => exact Or.inr ⟨e, rfl, rfl⟩

theorem eq_ok_of_ofExcept {old : Disk} {r : Except VolumeError Disk}
    (h : (ofExcept old r).error? = none) : r = .ok (ofExcept old r).disk := by
  rcases ofExcept_cases old r with ⟨new, hr, ho⟩ | ⟨e, -, ho⟩
  · rw [ho, hr]
  · rw [ho] at h; cases h

theorem disk_eq_of_ofExcept {old : Disk} {r : Except VolumeError Disk}
    (h : (ofExcept old r).error? ≠ none) : (ofExcept old r).disk = old := by
  rcases ofExcept_cases old r with ⟨new, -, ho⟩ | ⟨e, -, ho⟩
  · rw [ho] at h; exact absurd rfl h
  · rw [ho]; rfl

end Change

namespace Disk

variable {d d' : Disk}

/-! ## Finding a file -/

theorem entries_of_find {name : String} {e : Entry} (h : d.find name = .ok e) :
    d.entries = .ok d.files ∧ d.files.find? (·.file.fileName == name) = some e := by
  cases hfs : d.entries with
  | error err => unfold find at h; rw [hfs] at h; cases h
  | ok fs =>
      rw [find_eq hfs] at h
      obtain ⟨-, rfl⟩ := entries_eq_ok.1 hfs
      split at h
      · rename_i e' he
        obtain rfl := Except.ok.inj h
        exact ⟨rfl, he⟩
      · cases h

theorem mem_files_of_find {name : String} {e : Entry} (h : d.find name = .ok e) :
    e ∈ d.files ∧ e.file.fileName = name := by
  obtain ⟨-, hfind⟩ := entries_of_find h
  have hname : (e.file.fileName == name) = true :=
    List.find?_some (p := fun f : Entry => f.file.fileName == name) hfind
  exact ⟨List.mem_of_find?_eq_some hfind, eq_of_beq hname⟩

/-- A sector of a file that was found says what was found. -/
theorem entryAt_of_find {name : String} {e : Entry} (h : d.find name = .ok e) :
    e.sector ∈ d.pointers ∧ d.entryAt e.sector = e := by
  obtain ⟨hp, he⟩ := mem_files.1 (mem_files_of_find h).1
  exact ⟨hp, he.symm⟩

/-- A file that is listed can be found by its name, or else one before it has the name. -/
theorem exists_find_of_mem (hd : d.Consistent) {e : Entry} (he : e ∈ d.files) :
    ∃ f, d.find e.file.fileName = .ok f := by
  rw [find_eq hd.entries_eq]
  cases hfind : d.files.find? (·.file.fileName == e.file.fileName) with
  | some f => exact ⟨f, rfl⟩
  | none => exact absurd (beq_self_eq_true _) (List.find?_eq_none.1 hfind e he)

/-! ## Adding -/

theorem addFile_added (hd : d.Consistent) {name : String} {f : FileFormat} {c : Contents}
    (h : d.addFile name f c = .ok d') : ∃ field p, packName name = some field
      ∧ (∀ e ∈ d.files, e.file.fileName ≠ name) ∧ d.place? c.sectors.length = some p
      ∧ (d.newDescriptor field f c p.data).sectors = p.data
      ∧ Added d d' p c.sectors (d.newDescriptor field f c p.data) := by
  obtain ⟨field, fs, p, hname, hfs, hnew, hroom, hplace, hcount, rfl⟩ := addFile_eq_ok h
  obtain ⟨-, rfl⟩ := entries_eq_ok.1 hfs
  rw [files, List.length_map] at hroom
  have hp := fits_of_place? hplace
  exact ⟨field, p, hname, hnew, hplace, sectors_newDescriptor hp hcount field f c,
    added_withFile hd hp _ hroom⟩

/-! ## Deleting -/

theorem delete_eq {name : String} {e : Entry} (he : d.find name = .ok e) :
    d.delete name =
      if e.file.isProtected then .refused d (.fileProtected name)
      else ⟨(d.putIndex (d.files.filter (·.sector != e.sector))).putBitmap
        (d.bitmap.markAll (e.sector :: e.file.sectors) false), none⟩ := by
  rw [delete, he, Result.ok_bind]
  split
  · rfl
  · rw [(entries_of_find he).1]; rfl

theorem delete_removed (hd : d.Consistent) {name : String} (h : (d.delete name).error? = none) :
    ∃ e, d.find name = .ok e ∧ e.file.isProtected = false
      ∧ Removed d (d.delete name).disk e.sector := by
  cases he : d.find name with
  | error err => rw [delete, he] at h; cases h
  | ok e =>
      obtain ⟨hp, hentry⟩ := entryAt_of_find he
      have hholds : e.sector :: e.file.sectors = d.holding e.sector := by
        rw [holding, ← congrArg Entry.file hentry]; rfl
      rw [delete_eq he, hholds] at h ⊢
      split at h
      · cases h
      · rename_i hfree
        rw [if_neg hfree]
        exact ⟨e, rfl, Bool.not_eq_true _ ▸ hfree, removed_delete hd hp⟩

/-! ## Renaming -/

theorem rename_eq {old new : String} {field : Block nameSize} {e : Entry}
    (hname : packName new = some field) (he : d.find old = .ok e) :
    d.rename old new =
      if old ≠ new ∧ (d.find new).isOk then .refused d (.nameConflict new)
      else match (d.putDescriptor e.sector { e.file with name := field }).entries with
        | .error err => .refused (d.putDescriptor e.sector { e.file with name := field }) err
        | .ok fs =>
          ⟨(d.putDescriptor e.sector { e.file with name := field }).putIndex fs, none⟩ := by
  rewrite [rename, hname, he]
  rfl

/-- If the index does not list itself as a file, it says the same after a descriptor record was
written. -/
theorem entries_putDescriptor (h : indexSector ∉ d.pointers) {name : String} {e : Entry}
    (he : d.find name = .ok e) (file : Descriptor) :
    (d.putDescriptor e.sector file).entries = .ok (d.putDescriptor e.sector file).files := by
  obtain ⟨hp, -⟩ := entryAt_of_find he
  have hsame : (d.putDescriptor e.sector file).pointers = d.pointers :=
    pointers_putDescriptor d (fun h1 => h (h1 ▸ hp)) file
  refine entries_eq_ok.2 ⟨fun q hq => ?_, rfl⟩
  rw [hsame] at hq
  exact (entries_eq_ok.1 (entries_of_find he).1).1 q hq

theorem disk_rename_of_refused (h : indexSector ∉ d.pointers) {old new : String}
    (hrefused : (d.rename old new).error? ≠ none) : (d.rename old new).disk = d := by
  cases hname : packName new with
  | none => rw [rename, hname]; rfl
  | some field =>
      cases he : d.find old with
      | error err => rw [rename, hname, he]; rfl
      | ok e =>
          rw [rename_eq hname he, entries_putDescriptor h he] at hrefused ⊢
          split
          · rfl
          · rename_i hfree
            rw [if_neg hfree] at hrefused
            exact absurd rfl hrefused

/-- A file that was given another name has its descriptor record and then the index written. -/
theorem disk_rename_of_accepted (hindex : indexSector ∉ d.pointers) {old new : String}
    (h : (d.rename old new).error? = none) :
    ∃ field e, packName new = some field ∧ d.find old = .ok e ∧ (d.rename old new).disk
      = (d.putDescriptor e.sector { e.file with name := field }).putIndex
        (d.putDescriptor e.sector { e.file with name := field }).files := by
  cases hname : packName new with
  | none => rw [rename, hname] at h; cases h
  | some field =>
      cases he : d.find old with
      | error err => rw [rename, hname, he] at h; cases h
      | ok e =>
          refine ⟨field, e, rfl, rfl, ?_⟩
          rw [rename_eq hname he, entries_putDescriptor hindex he] at h ⊢
          split at h
          · cases h
          · rename_i hfree
            rw [if_neg hfree]

theorem rename_rewritten (hd : d.Consistent) {old new : String}
    (h : (d.rename old new).error? = none) :
    ∃ field e, packName new = some field ∧ d.find old = .ok e
      ∧ (old ≠ new → ∀ e ∈ d.files, e.file.fileName ≠ new)
      ∧ Rewritten d (d.rename old new).disk e.sector { e.file with name := field } := by
  have hindex := hd.indexSector_not_mem_pointers
  cases hname : packName new with
  | none => rw [rename, hname] at h; cases h
  | some field =>
      cases he : d.find old with
      | error err => rw [rename, hname, he] at h; cases h
      | ok e =>
          obtain ⟨hp, hentry⟩ := entryAt_of_find he
          have hrewritten := rewritten_putDescriptor hd hp { e.file with name := field }
          have hkept : (d.putDescriptor e.sector { e.file with name := field }).Consistent :=
            hrewritten.consistent hd (by rw [hentry]; rfl)
          rw [rename_eq hname he, entries_putDescriptor hindex he] at h ⊢
          split at h
          · cases h
          · rename_i hfree
            rw [if_neg hfree]
            refine ⟨field, e, rfl, rfl, fun hne f hf hfn => hfree ⟨hne, ?_⟩,
              hrewritten.putIndex hkept (hd.bounds_pointer hp).1⟩
            obtain ⟨_, hfind⟩ := exists_find_of_mem hd hf
            rw [← hfn, hfind]; rfl

/-! ## Protecting -/

theorem protect_eq {name : String} {e : Entry} (he : d.find name = .ok e) (on : Bool) :
    d.protect name on = ⟨d.putDescriptor e.sector (e.file.protect on), none⟩ := by
  rw [protect, he]; rfl

theorem protect_rewritten (hd : d.Consistent) {name : String} {on : Bool}
    (h : (d.protect name on).error? = none) :
    ∃ e, d.find name = .ok e
      ∧ Rewritten d (d.protect name on).disk e.sector (e.file.protect on) := by
  cases he : d.find name with
  | error err => rw [protect, he] at h; cases h
  | ok e =>
      refine ⟨e, rfl, ?_⟩
      rw [protect_eq he]
      exact rewritten_putDescriptor hd (entryAt_of_find he).1 _

end Disk

end TiBench.Volume
