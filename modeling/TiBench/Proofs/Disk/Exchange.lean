import TiBench.Proofs.Disk.Reading
import Mathlib.Logic.Function.Basic

/-!
# Exchanging files

On a clean disk a name tells at most one file, so that the order of the index does not matter. A
change that takes some files for others leaves the reading of every other name as it was.
-/

namespace TiBench.Volume.Disk

open scoped List

variable {d d' : Disk}

/-- A disk that passes its check, and on which no two files have the same name. -/
structure Clean (d : Disk) : Prop where
  check : d.check = .ok []
  distinct : ∀ fs, d.entries = .ok fs → (fs.map (·.file.fileName)).Nodup

/-- The names of the files, in the order of the index. -/
def names (d : Disk) : List String := d.files.map (·.file.fileName)

theorem mem_names {name : String} : name ∈ d.names ↔ ∃ e ∈ d.files, e.file.fileName = name :=
  List.mem_map

theorem clean_iff : d.Clean ↔ d.Consistent ∧ d.names.Nodup := by
  constructor
  · intro h
    have hd := check_eq_nil_iff.1 h.check
    exact ⟨hd, h.distinct _ hd.entries_eq⟩
  · rintro ⟨hd, hnames⟩
    refine ⟨check_eq_nil_iff.2 hd, fun fs hfs => ?_⟩
    obtain ⟨-, rfl⟩ := entries_eq_ok.1 hfs
    exact hnames

namespace Clean

theorem consistent (h : d.Clean) : d.Consistent := (clean_iff.1 h).1

theorem nodup_names (h : d.Clean) : d.names.Nodup := (clean_iff.1 h).2

theorem eq_of_fileName_eq (h : d.Clean) {e f : Entry} (he : e ∈ d.files) (hf : f ∈ d.files)
    (hname : e.file.fileName = f.file.fileName) : e = f :=
  List.inj_on_of_nodup_map h.nodup_names he hf hname

theorem find_of_mem (h : d.Clean) {e : Entry} (he : e ∈ d.files) :
    d.find e.file.fileName = .ok e := by
  obtain ⟨f, hfind⟩ := exists_find_of_mem h.consistent he
  obtain ⟨hf, hname⟩ := mem_files_of_find hfind
  rw [hfind, h.eq_of_fileName_eq hf he hname]

theorem reading_of_mem (h : d.Clean) {e : Entry} (he : e ∈ d.files) :
    d.reading e.file.fileName = (d.stored e).reading e.file.fileName :=
  reading_of_find h.consistent (h.find_of_mem he)

end Clean

theorem find_of_not_mem_names (hd : d.Consistent) {name : String} (h : name ∉ d.names) :
    d.find name = .error (.fileNotFound name) := by
  have hnone : d.files.find? (·.file.fileName == name) = none :=
    List.find?_eq_none.2 fun e he hname => h (mem_names.2 ⟨e, he, eq_of_beq hname⟩)
  rw [find_eq hd.entries_eq, hnone]

theorem reading_of_not_mem_names (hd : d.Consistent) {name : String} (h : name ∉ d.names) :
    d.reading name = .missing name := reading_of_find_error (find_of_not_mem_names hd h)

/-! ## Exchanges -/

/-- The disks have the files of `rest` in common, and besides these the one has the files of `old`,
the other those of `new`. -/
structure Exchanges (d d' : Disk) (old new rest : List Entry) : Prop where
  files_perm : d.files ~ old ++ rest
  files_perm' : d'.files ~ new ++ rest
  stored_eq : ∀ e ∈ rest, d'.stored e = d.stored e

namespace Exchanges

variable {old new rest : List Entry}

theorem nodup_names (h : Exchanges d d' old new rest) (hd : d.Clean) :
    (old.map (·.file.fileName) ++ rest.map (·.file.fileName)).Nodup := by
  rw [← List.map_append]
  exact (h.files_perm.map _).nodup_iff.1 hd.nodup_names

theorem clean (h : Exchanges d d' old new rest) (hd' : d'.Consistent)
    (hnames : (new.map (·.file.fileName) ++ rest.map (·.file.fileName)).Nodup) : d'.Clean := by
  rw [← List.map_append] at hnames
  exact clean_iff.2 ⟨hd', (h.files_perm'.map _).nodup_iff.2 hnames⟩

/-- The reading of a name that no exchanged file has stays as it was. -/
theorem reading_eq (h : Exchanges d d' old new rest) (hd : d.Clean) (hd' : d'.Clean) {s : String}
    (hold : ∀ e ∈ old, e.file.fileName ≠ s) (hnew : ∀ e ∈ new, e.file.fileName ≠ s) :
    d'.reading s = d.reading s := by
  by_cases hrest : ∃ e ∈ rest, e.file.fileName = s
  · obtain ⟨e, he, rfl⟩ := hrest
    rw [hd.reading_of_mem (h.files_perm.mem_iff.2 (List.mem_append_right _ he)),
      hd'.reading_of_mem (h.files_perm'.mem_iff.2 (List.mem_append_right _ he)), h.stored_eq e he]
  · have habsent {l : List Entry} (hl : ∀ e ∈ l, e.file.fileName ≠ s) :
        ∀ e ∈ l ++ rest, e.file.fileName ≠ s := by
      intro e he hs
      rcases List.mem_append.1 he with he | he
      · exact hl e he hs
      · exact hrest ⟨e, he, hs⟩
    rw [reading_of_not_mem_names hd.consistent, reading_of_not_mem_names hd'.consistent]
    · rintro hs
      obtain ⟨e, he, hes⟩ := mem_names.1 hs
      exact habsent hnew e (h.files_perm'.mem_iff.1 he) hes
    · rintro hs
      obtain ⟨e, he, hes⟩ := mem_names.1 hs
      exact habsent hold e (h.files_perm.mem_iff.1 he) hes

end Exchanges

/-! ## Exchanges on clean disks -/

namespace Exchanges

variable {e x : Entry} {rest : List Entry}

theorem find_new {old : List Entry} (h : Exchanges d d' old [x] rest) (hd' : d'.Consistent)
    (hrest : ∀ f ∈ rest, f.file.fileName ≠ x.file.fileName) : d'.find x.file.fileName = .ok x := by
  obtain ⟨f, hfind⟩ := exists_find_of_mem hd' (h.files_perm'.mem_iff.2 List.mem_cons_self)
  obtain ⟨hf, hname⟩ := mem_files_of_find hfind
  rcases List.mem_cons.1 (h.files_perm'.mem_iff.1 hf) with rfl | hf
  · exact hfind
  · exact absurd hname (hrest f hf)

theorem reading_new {old : List Entry} (h : Exchanges d d' old [x] rest) (hd' : d'.Clean) :
    d'.reading x.file.fileName = (d'.stored x).reading x.file.fileName :=
  hd'.reading_of_mem (h.files_perm'.mem_iff.2 List.mem_cons_self)

theorem reading_old {new : List Entry} (h : Exchanges d d' [e] new rest) (hd : d.Clean)
    (hd' : d'.Clean) (hnew : ∀ f ∈ new, f.file.fileName ≠ e.file.fileName) :
    d'.reading e.file.fileName = .missing e.file.fileName := by
  have hrest := (List.nodup_cons.1 (h.nodup_names hd)).1
  refine reading_of_not_mem_names hd'.consistent fun hmem => ?_
  obtain ⟨f, hf, hname⟩ := mem_names.1 hmem
  rcases List.mem_append.1 (h.files_perm'.mem_iff.1 hf) with hf | hf
  · exact hnew f hf hname
  · exact hrest (List.mem_map.2 ⟨f, hf, hname⟩)

theorem reading_added (h : Exchanges d d' [] [x] rest) (hd : d.Clean) (hd' : d'.Clean) :
    d'.reading = Function.update d.reading x.file.fileName
      ((d'.stored x).reading x.file.fileName) := by
  funext s
  by_cases hs : s = x.file.fileName
  · rw [hs, Function.update_self, h.reading_new hd']
  · rw [Function.update_of_ne hs]
    refine h.reading_eq hd hd' (fun _ hf => nomatch hf) fun f hf => ?_
    rw [List.mem_singleton.1 hf]; exact Ne.symm hs

theorem reading_removed (h : Exchanges d d' [e] [] rest) (hd : d.Clean) (hd' : d'.Clean) :
    d'.reading = Function.update d.reading e.file.fileName (.missing e.file.fileName) := by
  funext s
  by_cases hs : s = e.file.fileName
  · rw [hs, Function.update_self, h.reading_old hd hd' fun _ hf => nomatch hf]
  · rw [Function.update_of_ne hs]
    refine h.reading_eq hd hd' (fun f hf => ?_) fun _ hf => nomatch hf
    rw [List.mem_singleton.1 hf]; exact Ne.symm hs

theorem reading_replaced (h : Exchanges d d' [e] [x] rest) (hd : d.Clean) (hd' : d'.Clean) :
    d'.reading = Function.update
      (Function.update d.reading e.file.fileName (.missing e.file.fileName)) x.file.fileName
      ((d'.stored x).reading x.file.fileName) := by
  funext s
  by_cases hs : s = x.file.fileName
  · rw [hs, Function.update_self, h.reading_new hd']
  · rw [Function.update_of_ne hs]
    by_cases hse : s = e.file.fileName
    · rw [hse, Function.update_self]
      refine h.reading_old hd hd' fun f hf => ?_
      rw [List.mem_singleton.1 hf]; exact fun hname => hs (hse.trans hname.symm)
    · rw [Function.update_of_ne hse]
      refine h.reading_eq hd hd' (fun f hf => ?_) fun f hf => ?_
      · rw [List.mem_singleton.1 hf]; exact Ne.symm hse
      · rw [List.mem_singleton.1 hf]; exact Ne.symm hs

theorem clean_of_removed (h : Exchanges d d' [e] [] rest) (hd : d.Clean)
    (hd' : d'.Consistent) : d'.Clean := h.clean hd' (List.nodup_cons.1 (h.nodup_names hd)).2

/-- A file in the place of another one has a name of its own, or the same name. -/
theorem clean_of_replaced (h : Exchanges d d' [e] [x] rest) (hd : d.Clean)
    (hd' : d'.Consistent)
    (hname : x.file.fileName = e.file.fileName ∨ x.file.fileName ∉ d.names) : d'.Clean := by
  have hnodup := List.nodup_cons.1 (h.nodup_names hd)
  have hnew : x.file.fileName ∉ rest.map (·.file.fileName) := by
    rcases hname with hname | hname
    · rw [hname]; exact hnodup.1
    · intro hmem
      obtain ⟨f, hf, hfx⟩ := List.mem_map.1 hmem
      exact hname (mem_names.2 ⟨f, h.files_perm.mem_iff.2 (List.mem_append_right _ hf), hfx⟩)
  exact h.clean hd' (List.nodup_cons.2 ⟨hnew, hnodup.2⟩)

end Exchanges

/-! ## The three ways of changing a disk as exchanges -/

theorem Touches.stored_eq {l : List Nat} (h : Touches d d' l) (hd : d.Consistent) {e : Entry}
    (he : e ∈ d.files) (hl : ∀ s ∈ d.holding e.sector, s ∉ l) :
    d'.entryAt e.sector = e ∧ d'.stored e = d.stored e := by
  obtain ⟨hp, hentry⟩ := mem_files.1 he
  have hpeek : ∀ s ∈ d.holding e.sector, d'.peek s = d.peek s := fun s hs =>
    h.peek_eq s (hd.bounds hp hs).1 (hl s hs)
  constructor
  · rw [entryAt, hpeek _ List.mem_cons_self]; exact hentry.symm
  · rw [stored, stored]
    congr 1
    refine List.map_congr_left fun s hs => congrArg Block.bytes (hpeek s ?_)
    rw [holding, ← file_of_mem_files he]
    exact List.mem_cons_of_mem _ hs

theorem Added.exchanges {p : Placement} {sectors : List Sector} {file : Descriptor} {n : Nat}
    (h : Added d d' p sectors file) (hd : d.Consistent) (hp : p.Fits d n) :
    Exchanges d d' [] [⟨p.descriptor, file⟩] d.files := by
  have hstored : ∀ e ∈ d.files, d'.entryAt e.sector = e ∧ d'.stored e = d.stored e :=
    fun e he => h.stored_eq hd he fun _ => hp.not_mem_of_holding hd (mem_files.1 he).1
  refine ⟨.refl _, ?_, fun e he => (hstored e he).2⟩
  have hfiles := h.pointers_perm.map d'.entryAt
  rw [List.map_cons, h.entryAt_eq, ← map_sector_files d, List.map_map] at hfiles
  have hold : d.files.map (d'.entryAt ∘ (·.sector)) = d.files :=
    (List.map_congr_left fun e he => (hstored e he).1).trans (List.map_id _)
  rw [hold] at hfiles
  exact hfiles

theorem Removed.exchanges {e : Entry} (h : Removed d d' e.sector) (hd : d.Consistent)
    (he : e ∈ d.files) : Exchanges d d' [e] [] d'.files := by
  have hkept : ∀ q ∈ d'.pointers, d'.entryAt q = d.entryAt q
      ∧ d'.stored (d.entryAt q) = d.stored (d.entryAt q) := fun q hq =>
    h.stored_eq hd (List.mem_map_of_mem (h.pointers_perm.mem_iff.2 (List.mem_cons_of_mem _ hq)))
      fun _ _ => List.not_mem_nil
  refine ⟨?_, .refl _, ?_⟩
  · have hfiles := h.pointers_perm.map d.entryAt
    rw [List.map_cons, ← (mem_files.1 he).2,
      ← List.map_congr_left fun q hq => (hkept q hq).1] at hfiles
    exact hfiles
  · intro f hf
    obtain ⟨q, hq, rfl⟩ := List.mem_map.1 hf
    rw [(hkept q hq).1, (hkept q hq).2]

theorem Rewritten.exchanges {e : Entry} {file : Descriptor} (h : Rewritten d d' e.sector file)
    (hd : d.Consistent) (he : e ∈ d.files) : Exchanges d d' [e] [⟨e.sector, file⟩]
      ((d.pointers.erase e.sector).map d.entryAt) := by
  obtain ⟨hp, hentry⟩ := mem_files.1 he
  have hkept : ∀ q ∈ d.pointers.erase e.sector, d'.entryAt q = d.entryAt q
      ∧ d'.stored (d.entryAt q) = d.stored (d.entryAt q) := by
    intro q hq
    obtain ⟨hne, hq⟩ := hd.nodup_pointers.mem_erase_iff.1 hq
    refine h.stored_eq hd (List.mem_map_of_mem hq) fun s hs hmem => ?_
    rw [List.mem_singleton.1 hmem] at hs
    exact hd.disjoint hp hq (Ne.symm hne) List.mem_cons_self hs
  refine ⟨?_, ?_, ?_⟩
  · have hfiles := (List.perm_cons_erase hp).map d.entryAt
    rw [List.map_cons, ← hentry] at hfiles
    exact hfiles
  · have hfiles := (h.pointers_perm.trans (List.perm_cons_erase hp)).map d'.entryAt
    rw [List.map_cons, h.entryAt_eq, List.map_congr_left fun q hq => (hkept q hq).1] at hfiles
    exact hfiles
  · intro f hf
    obtain ⟨q, hq, rfl⟩ := List.mem_map.1 hf
    exact (hkept q hq).2

/-- The data of a file whose descriptor record is written again is the data it had. -/
theorem Rewritten.stored_eq {e : Entry} {file : Descriptor} (h : Rewritten d d' e.sector file)
    (hd : d.Consistent) (he : e ∈ d.files) (hfile : file.sectors = e.file.sectors) :
    d'.stored ⟨e.sector, file⟩ = ⟨file, (d.stored e).data⟩ := by
  rw [stored, stored, hfile]
  congr 1
  refine List.map_congr_left fun s hs => congrArg Block.bytes ?_
  have hp := (mem_files.1 he).1
  have hnodup := (List.nodup_flatMap.1 hd.nodup_flatMap).1 _ hp
  have hmem : s ∈ d.holding e.sector := by
    rw [holding, ← file_of_mem_files he]; exact List.mem_cons_of_mem _ hs
  rw [holding, ← file_of_mem_files he, List.nodup_cons] at hnodup
  exact h.peek_eq s (hd.bounds hp hmem).1
    (List.mem_singleton.not.2 fun hse => hnodup.1 (hse ▸ hs))

end TiBench.Volume.Disk
