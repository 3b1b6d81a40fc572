import TiBench.Proofs.Disk.Listing

/-!
# The order of the index

The operations keep the index as it is built for the files of the disk, and so in the order of their
names: whichever writes it sorts it, and protecting a file leaves all names where they are.
-/

namespace TiBench.Volume

namespace Disk

open scoped List

variable {d d' : Disk}

/-- The names of the files are in the order of their bytes. -/
def Ordered (d : Disk) : Prop := d.names.Pairwise fun a b => Text.utf8 a ≤ Text.utf8 b

/-- A file as the index is built for it. -/
def Entry.key (e : Entry) : String × Nat := (e.file.fileName, e.sector)

/-- The names of the files, with the sectors of their descriptor records. -/
def keys (d : Disk) : List (String × Nat) := d.files.map Entry.key

/-- Sector one is the index that is built for the files, in the order in which it was given them. -/
def Indexed (d : Disk) : Prop := ∃ l, l ~ d.keys ∧ d.peek indexSector = Index.build l

theorem Indexed.ordered (h : d.Indexed) (hd : d.Consistent) : d.Ordered := by
  obtain ⟨l, hl, hpeek⟩ := h
  have hperm := (Index.sort_perm l).trans hl
  have hfiles : ∀ f ∈ Index.sort l, ∃ e ∈ d.files, e.key = f :=
    fun f hf => List.mem_map.1 (hperm.mem_iff.1 hf)
  have hpointers : d.pointers = (Index.sort l).map (·.2) := by
    rw [pointers, hpeek, Index.build, Index.pointers_sector]
    · rw [hperm.length_eq, keys, List.length_map, files, List.length_map]
      exact d.length_pointers_le
    · intro f hf
      obtain ⟨e, he, rfl⟩ := hfiles f hf
      obtain ⟨hfirst, hlt⟩ := hd.bounds_file he
      exact ⟨Nat.lt_of_lt_of_le (by decide) hfirst, Nat.lt_trans hlt (by decide)⟩
  have hnames : d.names = (Index.sort l).map (·.1) := by
    rw [names, files, hpointers, List.map_map, List.map_map]
    refine List.map_congr_left fun f hf => ?_
    obtain ⟨e, he, rfl⟩ := hfiles f hf
    exact (congrArg (fun e : Entry => e.file.fileName) (mem_files.1 he).2).symm
  rw [Ordered, hnames, List.pairwise_map]
  exact Index.pairwise_sort l

/-! ## Writing the index -/

theorem indexed_of_putIndex {c : Disk} {fs : List Entry}
    (h : d.peek indexSector = (c.putIndex fs).peek indexSector) (hfs : fs ~ d.files) :
    d.Indexed := by
  refine ⟨_, hfs.map Entry.key, ?_⟩
  rw [h, putIndex, peek_putSector_self (lt_count_of_lt_total c.indexSector_lt_total)]
  rfl

theorem indexed_adding (hd : d.Consistent) {name : String} {f : FileFormat}
    {c : Except VolumeError Contents} (h : (d.adding name f c).error? = none) :
    (d.adding name f c).disk.Indexed := by
  obtain ⟨contents, -, hadd⟩ := Result.bind_eq_ok.1 (Change.eq_ok_of_ofExcept h)
  obtain ⟨field, fs, p, -, hfs, -, hroom, hplace, -, hdisk⟩ := addFile_eq_ok hadd
  obtain ⟨-, rfl⟩ := entries_eq_ok.1 hfs
  have hp := fits_of_place? hplace
  have hadded := added_withFile hd hp (d.newDescriptor field f contents p.data)
    (by rw [files, List.length_map] at hroom; exact hroom)
  have hex := hadded.exchanges hd hp
  change (d.adding name f c).disk = _ at hdisk
  rw [hdisk]
  exact indexed_of_putIndex (peek_putBitmap_of_ne _ (by decide) _)
    ((List.perm_append_singleton _ _).trans hex.files_perm'.symm)

theorem indexed_delete (hd : d.Consistent) {name : String} (h : (d.delete name).error? = none) :
    (d.delete name).disk.Indexed := by
  obtain ⟨e, he, hfree, hremoved⟩ := delete_removed hd h
  have hex := hremoved.exchanges hd (mem_files_of_find he).1
  have hkept : (d.delete name).disk.files.filter (·.sector != e.sector)
      = (d.delete name).disk.files := by
    have hnodup := hremoved.pointers_perm.nodup_iff.1 hd.nodup_pointers
    refine List.filter_eq_self.2 fun f hf => bne_iff_ne.2 fun heq => ?_
    exact (List.nodup_cons.1 hnodup).1 (heq ▸ (mem_files.1 hf).1)
  have hothers := hex.files_perm.filter (·.sector != e.sector)
  rw [List.singleton_append, List.filter_cons_of_neg (by simp), hkept] at hothers
  rw [delete_eq he, if_neg (Bool.not_eq_true _ ▸ hfree)] at hothers ⊢
  exact indexed_of_putIndex (peek_putBitmap_of_ne _ (by decide) _) hothers

theorem indexed_rename (hd : d.Consistent) {old new : String}
    (h : (d.rename old new).error? = none) : (d.rename old new).disk.Indexed := by
  obtain ⟨field, e, -, he, hdisk⟩ :=
    disk_rename_of_accepted hd.indexSector_not_mem_pointers h
  obtain ⟨hp, hentry⟩ := entryAt_of_find he
  have hmem := (mem_files_of_find he).1
  have hrewritten := rewritten_putDescriptor hd hp { e.file with name := field }
  have hkept := hrewritten.consistent hd (by rw [hentry]; rfl)
  have hwritten := hrewritten.putIndex hkept (hd.bounds_pointer hp).1
  rw [hdisk]
  exact indexed_of_putIndex rfl ((hrewritten.exchanges hd hmem).files_perm'.trans
    (hwritten.exchanges hd hmem).files_perm'.symm)

theorem indexed_protect (hi : d.Indexed) (hd : d.Consistent) {name : String} {on : Bool}
    (h : (d.protect name on).error? = none) : (d.protect name on).disk.Indexed := by
  obtain ⟨e, he, hrewritten⟩ := protect_rewritten hd h
  obtain ⟨l, hl, hpeek⟩ := hi
  have hp := (entryAt_of_find he).1
  have hex := hrewritten.exchanges hd (mem_files_of_find he).1
  have hkeys : d.keys ~ (d.protect name on).disk.keys :=
    (hex.files_perm.map Entry.key).trans (hex.files_perm'.map Entry.key).symm
  have hne : e.sector ≠ indexSector := fun heq => hd.indexSector_not_mem_pointers (heq ▸ hp)
  refine ⟨l, hl.trans hkeys, ?_⟩
  rw [protect_eq he, putDescriptor, peek_putSector_of_ne _ hne, hpeek]

/-! ## Operations -/

theorem Indexed.apply (hi : d.Indexed) (hd : d.Clean) (op : Operation) :
    (d.apply op).disk.Indexed := by
  have hcons := hd.consistent
  by_cases h : (d.apply op).error? = none
  · cases op with
    | add name data f => exact indexed_adding hcons h
    | addRecords name records f =>
        rw [Disk.apply, addRecords_eq] at h ⊢
        exact indexed_adding hcons h
    | addSpecial name raw f count => exact indexed_adding (c := .ok _) hcons h
    | delete name => exact indexed_delete hcons h
    | rename old new => exact indexed_rename hcons h
    | protect name on => exact indexed_protect hi hcons h
    | setClock t => exact hi
  · rw [hd.disk_apply_of_refused h]
    exact hi

theorem Indexed.run (hi : d.Indexed) (hd : d.Clean) (ops : List Operation) :
    (d.run ops).Indexed := by
  induction ops generalizing d with
  | nil => exact hi
  | cons op ops ih => exact ih (hi.apply hd op) (hd.apply op)

theorem indexed_init {clock : Timestamp} {name : String} {sectors : Nat} {sides density : UInt8}
    (h : init clock name sectors sides density = .ok d) : d.Indexed := by
  refine ⟨[], ?_, ?_⟩
  · rw [keys, (consistent_init h).2]
    exact .nil
  · rw [(init_eq_ok h).2.1, Index.build, Index.sort, List.mergeSort_nil]
    rfl

/-- Two disks with the same files in their indexes have the same index. -/
theorem Indexed.peek_eq (hi : d.Indexed) (hi' : d'.Indexed) (hd : d.Clean)
    (hkeys : d'.keys ~ d.keys) : d'.peek indexSector = d.peek indexSector := by
  have hinj : ∀ a ∈ d.keys, ∀ b ∈ d.keys, Text.utf8 a.1 = Text.utf8 b.1 → a = b := by
    intro a ha b hb hab
    obtain ⟨e, he, rfl⟩ := List.mem_map.1 ha
    obtain ⟨f, hf, rfl⟩ := List.mem_map.1 hb
    rw [hd.eq_of_fileName_eq he hf (Text.eq_of_utf8_eq hab)]
  obtain ⟨l, hl, hpeek⟩ := hi
  obtain ⟨l', hl', hpeek'⟩ := hi'
  rw [hpeek, hpeek', Index.build, Index.build, Index.sort_eq_of_perm hl hinj,
    Index.sort_eq_of_perm (hl'.trans hkeys) hinj]

end Disk

end TiBench.Volume
