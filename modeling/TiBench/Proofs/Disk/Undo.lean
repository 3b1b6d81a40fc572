import TiBench.Proofs.Disk.Reload
import TiBench.Proofs.Disk.Rows

/-!
# Undoing operations

A file that is added and deleted again leaves the bitmap and the index as they were. A file that is
renamed back, or whose protection is turned back, leaves the whole disk as it was.
-/

namespace TiBench.Volume

theorem Change.eq_of_accepted {c : Change} {d : Disk} (h : c.error? = none) (hdisk : c.disk = d) :
    c = ⟨d, none⟩ := by
  cases c
  cases h
  cases hdisk
  rfl

namespace Disk

open scoped List

variable {d d' : Disk} {name old new : String}

/-! ## What the operations maintain -/

/-- What holds of a blank disk and after each operation. -/
structure Maintained (d : Disk) : Prop where
  clean : d.Clean
  saved : d.Saved
  named : d.Named
  indexed : d.Indexed

theorem maintained_init {clock : Timestamp} {sectors : Nat} {sides density : UInt8}
    (h : init clock name sectors sides density = .ok d) : d.Maintained :=
  ⟨clean_init h, saved_init h, named_init h, indexed_init h⟩

theorem Maintained.run (h : d.Maintained) (ops : List Operation) : (d.run ops).Maintained := by
  induction ops generalizing d with
  | nil => exact h
  | cons op ops ih =>
      exact ih ⟨h.clean.apply op, h.saved.apply op, h.named.apply h.clean op,
        h.indexed.apply h.clean op⟩

/-! ## Deleting what was added -/

/-- Besides the bitmap, an operation that adds a file changes nothing that is known of the
volume. -/
theorem info_adding {f : FileFormat} {c : Except VolumeError Contents}
    (h : (d.adding name f c).error? = none) :
    ∃ b, (d.adding name f c).disk.info = { d.info with bitmap := b } := by
  obtain ⟨contents, -, hadd⟩ := Result.bind_eq_ok.1 (Change.eq_ok_of_ofExcept h)
  obtain ⟨field, fs, p, -, -, -, -, -, -, hdisk⟩ := addFile_eq_ok hadd
  change (d.adding name f c).disk = _ at hdisk
  refine ⟨p.bitmap.toBytes, ?_⟩
  have hinfo : (d.adding name f c).disk.info
      = { (d.putSectors (p.data.zip contents.sectors)).info with bitmap := p.bitmap.toBytes } := by
    rw [hdisk]
    rfl
  rw [hinfo, info_putSectors]

theorem info_delete (hd : d.Consistent) (h : (d.delete name).error? = none) :
    ∃ b, (d.delete name).disk.info = { d.info with bitmap := b } := by
  obtain ⟨e, he, hfree, -⟩ := delete_removed hd h
  rw [delete_eq he, if_neg (Bool.not_eq_true _ ▸ hfree)]
  exact ⟨_, rfl⟩

/-- What is known of a volume is the same as before if the bitmap is. -/
theorem info_eq_of_bitmap_eq {b : Block bitmapSize} (h : d'.info = { d.info with bitmap := b })
    (hbitmap : d'.bitmap = d.bitmap) : d'.info = d.info := by
  have hbytes := congrArg Bitmap.toBytes hbitmap
  rw [bitmap, bitmap, Bitmap.toBytes_ofBytes, Bitmap.toBytes_ofBytes, h] at hbytes
  rw [h]
  change { d.info with bitmap := b } = d.info
  rw [show b = d.info.bitmap from hbytes]

/-- A file of contents that were made is not protected, so that it can be deleted; then the bitmap
and the index are as they were. -/
theorem Maintained.delete_adding (hm : d.Maintained) {f : FileFormat} {c : Contents} {u : Bool}
    (hflags : c.flags = if u then Descriptor.unterminatedFlag else 0)
    (h : (d.adding name f (.ok c)).error? = none) :
    ((d.adding name f (.ok c)).disk.delete name).error? = none
      ∧ ((d.adding name f (.ok c)).disk.delete name).disk.info = d.info
      ∧ ((d.adding name f (.ok c)).disk.delete name).disk.peek indexSector
        = d.peek indexSector := by
  have hcons := hm.clean.consistent
  have hclean' := (hm.clean.adding h).1
  obtain ⟨b, hinfo⟩ := info_adding h
  obtain ⟨contents, field, p, hc, hpack, -, hplace, hsectors, hadded⟩ := adding_added hcons h
  obtain rfl := Except.ok.inj hc
  generalize (d.adding name f (.ok c)).disk = d' at *
  let x : Entry := ⟨p.descriptor, d.newDescriptor field f c p.data⟩
  have hp := fits_of_place? hplace
  have hname : x.file.fileName = name := unpackName_of_packName hpack
  have hfiles : d'.files ~ x :: d.files := (hadded.exchanges hcons hp).files_perm'
  have hmem : x ∈ d'.files := hfiles.mem_iff.2 List.mem_cons_self
  have hfind := hclean'.find_of_mem hmem
  have hprotected : x.file.isProtected = false :=
    Descriptor.isProtected_of_newFlags (Contents.format?_stored hflags f).1
  have haccepted : (d'.delete name).error? = none := by
    rw [← hname, hclean'.error?_delete hmem, hprotected]
    rfl
  obtain ⟨e, he, -, hremoved⟩ := delete_removed hclean'.consistent haccepted
  rw [← hname, hfind] at he
  obtain rfl := Except.ok.inj he
  refine ⟨haccepted, ?_, ?_⟩
  · obtain ⟨b', hinfo'⟩ := info_delete hclean'.consistent haccepted
    refine info_eq_of_bitmap_eq (by rw [hinfo', hinfo]) ?_
    rw [hremoved.bitmap_eq, hadded.holding_descriptor, hsectors, hadded.bitmap_eq]
    refine Bitmap.markAll_true_false fun s hs => ⟨?_, (hp.free s hs).2.2⟩
    rw [size_bitmap]
    exact (hp.bounds hs).2
  · have hindexed := indexed_delete hclean'.consistent haccepted
    have hex := hremoved.exchanges hclean'.consistent hmem
    generalize (d'.delete name).disk = d'' at *
    have hleft : d''.files ~ d.files := (List.perm_cons x).1 (hex.files_perm.symm.trans hfiles)
    exact hm.indexed.peek_eq hindexed hm.clean (hleft.map Entry.key)

/-! ## Renaming back -/

/-- The file with another stored name. -/
def Entry.renamed (e : Entry) (field : Block nameSize) : Entry :=
  ⟨e.sector, { e.file with name := field }⟩

/-- Renaming writes the descriptor record of the file and then the index. -/
theorem exists_rename (hd : d.Consistent) (h : (d.rename old new).error? = none) :
    ∃ e field s rest, e ∈ d.files ∧ e.file.fileName = old ∧ packName new = some field
      ∧ (d.rename old new).disk
        = (d.putDescriptor e.sector (e.renamed field).file).putSector indexSector s
      ∧ Exchanges d (d.rename old new).disk [e] [e.renamed field] rest := by
  obtain ⟨field, e, hpack, he, hdisk⟩ := disk_rename_of_accepted hd.indexSector_not_mem_pointers h
  obtain ⟨field', e', hpack', he', -, hrewritten⟩ := rename_rewritten hd h
  obtain rfl := Option.some.inj (hpack.symm.trans hpack')
  obtain rfl := Except.ok.inj (he.symm.trans he')
  obtain ⟨hmem, hname⟩ := mem_files_of_find he
  exact ⟨e, field, _, _, hmem, hname, hpack, hdisk, hrewritten.exchanges hd hmem⟩

theorem toSector_of_mem_files {e : Entry} (h : e ∈ d.files) :
    e.file.toSector = d.peek e.sector := by
  rw [file_of_mem_files h, Descriptor.toSector_ofSector]

/-- A descriptor record and the index are written, and then again as they were. -/
theorem putSector_undo {n m : Nat} (h : n ≠ m) (s t : Sector) :
    (((d.putSector n s).putSector m t).putSector n (d.peek n)).putSector m (d.peek m) = d := by
  rw [putSector_comm _ h.symm, putSector_putSector, putSector_putSector, putSector_peek,
    putSector_peek]

theorem Maintained.error?_rename_back (hm : d.Maintained) (h : (d.rename old new).error? = none) :
    ((d.rename old new).disk.rename new old).error? = none := by
  have hclean' := (hm.clean.rename h).1
  obtain ⟨e, field, s, rest, hmem, rfl, hpack, -, hex⟩ := exists_rename hm.clean.consistent h
  have hnodup := hex.nodup_names hm.clean
  generalize (d.rename e.file.fileName new).disk = d' at *
  have hnames : d'.names ~ new :: rest.map (·.file.fileName) := by
    have hnames := hex.files_perm'.map (·.file.fileName)
    rwa [List.singleton_append, List.map_cons, Entry.renamed, Descriptor.fileName,
      unpackName_of_packName hpack] at hnames
  rw [error?_rename hclean'.consistent, if_neg, if_neg, if_neg]
  · rintro ⟨hne, hmem'⟩
    rcases List.mem_cons.1 (hnames.mem_iff.1 hmem') with heq | hrest
    · exact hne heq.symm
    · exact (List.nodup_cons.1 hnodup).1 hrest
  · exact not_not_intro (hnames.mem_iff.2 List.mem_cons_self)
  · rw [hm.named e hmem]
    exact Option.some_ne_none _

theorem Maintained.rename_back (hm : d.Maintained) (h : (d.rename old new).error? = none) :
    (d.rename old new).disk.rename new old = ⟨d, none⟩ := by
  have hclean' := (hm.clean.rename h).1
  have haccepted := hm.error?_rename_back h
  have hindexed := indexed_rename hclean'.consistent haccepted
  obtain ⟨e, field, s, rest, hmem, hold, hpack, hdisk, hex⟩ := exists_rename hm.clean.consistent h
  obtain ⟨e', field', s', rest', hmem', hnew, hpack', hdisk', hex'⟩ :=
    exists_rename hclean'.consistent haccepted
  -- The file that is renamed back is the one that was renamed, and its old name is stored again.
  obtain rfl : e' = e.renamed field :=
    hclean'.eq_of_fileName_eq hmem' (hex.files_perm'.mem_iff.2 List.mem_cons_self)
      (hnew.trans (unpackName_of_packName hpack).symm)
  rw [← hold, hm.named e hmem] at hpack'
  obtain rfl := Option.some.inj hpack'
  have hindex : s' = d.peek indexSector := by
    have hrest : rest' ~ rest := (List.perm_cons _).1 (hex'.files_perm.symm.trans hex.files_perm')
    have hfiles := hex'.files_perm'.trans ((hrest.cons e).trans hex.files_perm.symm)
    rw [← hm.indexed.peek_eq hindexed hm.clean (hfiles.map Entry.key), hdisk',
      peek_putSector_self]
    exact lt_count_of_lt_total (indexSector_lt_total _)
  have hne : e.sector ≠ indexSector := fun heq =>
    hm.clean.consistent.indexSector_not_mem_pointers (heq ▸ (mem_files.1 hmem).1)
  refine Change.eq_of_accepted haccepted ?_
  rw [hdisk', hindex, hdisk]
  change (((d.putSector _ _).putSector _ _).putSector e.sector e.file.toSector).putSector _ _ = d
  rw [toSector_of_mem_files hmem, putSector_undo hne]

/-! ## Turning protection back -/

theorem protect_back {e : Entry} (hd : d.Clean) (hmem : e ∈ d.files) :
    (d.protect e.file.fileName !e.file.isProtected).error? = none
      ∧ (d.protect e.file.fileName !e.file.isProtected).disk.protect e.file.fileName
        e.file.isProtected = ⟨d, none⟩ := by
  have hfind := hd.find_of_mem hmem
  have haccepted : (d.protect e.file.fileName !e.file.isProtected).error? = none := by
    rw [protect_eq hfind]
  have hclean' := (hd.protect haccepted).1
  obtain ⟨e', he', hrewritten⟩ := protect_rewritten hd.consistent haccepted
  obtain rfl := Except.ok.inj (hfind.symm.trans he')
  have hmem' := (hrewritten.exchanges hd.consistent hmem).files_perm'.mem_iff.2 List.mem_cons_self
  have hfind' : (d.protect e.file.fileName !e.file.isProtected).disk.find e.file.fileName
      = .ok ⟨e.sector, e.file.protect !e.file.isProtected⟩ := hclean'.find_of_mem hmem'
  refine ⟨haccepted, ?_⟩
  rw [protect_eq hfind', protect_eq hfind, putDescriptor, putDescriptor, putSector_putSector,
    Descriptor.protect_protect, toSector_of_mem_files hmem, putSector_peek]

/-! ## After any operations -/

end Disk

/-- The name of the file that an operation adds, if it adds one. -/
def Operation.added? : Operation → Option String
  | .add name _ _ => some name
  | .addRecords name _ _ => some name
  | .addSpecial name _ _ _ => some name
  | .delete _ => none
  | .rename _ _ => none
  | .protect _ _ => none
  | .setClock _ => none

namespace Disk

variable {d : Disk} {name : String}

theorem Contents.flags_of_contentsOf {f : FileFormat} {data : Bytes} {c : Contents}
    (h : contentsOf f data = .ok c) :
    ∃ u : Bool, c.flags = if u then Descriptor.unterminatedFlag else 0 := by
  cases f with
  | program => exact (holds_contentsOf_program h).flags_eq
  | records r => exact (holds_contentsOf_records h).flags_eq

/-- An operation that adds a file is the adding of contents that do not protect it. -/
theorem exists_adding {op : Operation} (hop : op.added? = some name)
    (h : (d.apply op).error? = none) :
    ∃ f c, d.apply op = d.adding name f (.ok c)
      ∧ ∃ u : Bool, c.flags = if u then Descriptor.unterminatedFlag else 0 := by
  cases op with
  | add m data f =>
      obtain rfl := Option.some.inj hop
      obtain ⟨c, hc, -⟩ := Result.bind_eq_ok.1 (Change.eq_ok_of_ofExcept h)
      exact ⟨f, c, by rw [Disk.apply, add_eq, hc], Contents.flags_of_contentsOf hc⟩
  | addRecords m records f =>
      obtain rfl := Option.some.inj hop
      rw [Disk.apply, addRecords_eq] at h
      obtain ⟨c, hc, -⟩ := Result.bind_eq_ok.1 (Change.eq_ok_of_ofExcept h)
      obtain ⟨e, -, rfl⟩ := contentsOfRecords_eq_ok.1 hc
      exact ⟨f, _, by rw [Disk.apply, addRecords_eq, hc], false, rfl⟩
  | addSpecial m raw f count =>
      obtain rfl := Option.some.inj hop
      exact ⟨f, _, addSpecial_eq m raw f count, false, rfl⟩
  | delete m => cases hop
  | rename old new => cases hop
  | protect m on => cases hop
  | setClock t => cases hop

/-- How operations are taken back. -/
structure Reversible (d : Disk) : Prop where
  /-- Deleting a file that was added leaves sectors zero and one as they were. -/
  added : ∀ op name, op.added? = some name → (d.apply op).error? = none →
    ((d.apply op).disk.delete name).error? = none
      ∧ ∀ n < firstFileSector,
        ((d.apply op).disk.delete name).disk.image.read n = d.image.read n
  renamed : ∀ old new, (d.rename old new).error? = none →
    (d.rename old new).disk.rename new old = ⟨d, none⟩
  protection : ∃ files, d.entries = .ok files ∧ ∀ e ∈ files,
    (d.protect e.file.fileName !e.file.isProtected).error? = none
      ∧ (d.protect e.file.fileName !e.file.isProtected).disk.protect e.file.fileName
        e.file.isProtected = ⟨d, none⟩

theorem Maintained.reversible (hm : d.Maintained) : d.Reversible := by
  constructor
  case added =>
    intro op name hop h
    obtain ⟨f, c, hadding, u, hflags⟩ := exists_adding hop h
    rw [hadding] at h ⊢
    obtain ⟨haccepted, hinfo, hindex⟩ := hm.delete_adding hflags h
    have hsaved := (hm.saved.adding name f (.ok c)).delete name
    refine ⟨haccepted, fun n hn => ?_⟩
    generalize ((d.adding name f (.ok c)).disk.delete name).disk = d' at *
    have hpeek : d'.peek n = d.peek n := by
      rcases Nat.le_one_iff_eq_zero_or_eq_one.1 (Nat.le_of_lt_succ hn) with rfl | rfl
      · exact hsaved.peek_info.trans ((congrArg Info.toSector hinfo).trans hm.saved.peek_info.symm)
      · exact hindex
    have hlt (c : Disk) : n < c.image.count :=
      lt_count_of_lt_total (Nat.lt_trans hn c.describes_files)
    rw [read_eq_peek (hlt d'), read_eq_peek (hlt d), hpeek]
  case renamed => exact fun old new => hm.rename_back
  case protection =>
    exact ⟨d.files, hm.clean.consistent.entries_eq, fun e => protect_back hm.clean⟩

/-- After any operations on a blank disk, adding a file is undone by deleting it, as far as the
bitmap and the index go, and renaming and protecting are undone by their opposites. -/
theorem run_reversible {clock : Timestamp} {name : String} {sectors : Nat} {sides density : UInt8}
    (h : init clock name sectors sides density = .ok d) (ops : List Operation) :
    (d.run ops).Reversible :=
  ((maintained_init h).run ops).reversible

/-- A file is added and protected. -/
def addedAndProtected : List Operation := [.add "B" [0x61] .program, .protect "B" true]

/-- Another file is added and deleted, and the first one is renamed and renamed back. -/
theorem run_reversible_protected : ∃ d, init .usual "WORK" 40 1 1 = .ok d
    ∧ ((d.run addedAndProtected).apply (.add "A" [1, 2] .program)).error? = none
    ∧ (((d.run addedAndProtected).apply (.add "A" [1, 2] .program)).disk.delete "A").error? = none
    ∧ ((d.run addedAndProtected).rename "B" "C").error? = none
    ∧ ((d.run addedAndProtected).rename "B" "C").disk.rename "C" "B"
      = ⟨d.run addedAndProtected, none⟩ := by
  obtain ⟨d, hd, hrun⟩ : ∃ d, init .usual "WORK" 40 1 1 = .ok d
      ∧ (((d.run addedAndProtected).apply (.add "A" [1, 2] .program)).error?.isNone
        && ((d.run addedAndProtected).rename "B" "C").error?.isNone) = true :=
    Result.exists_ok_of_any (by decide +kernel)
  obtain ⟨hadd, hrename⟩ := Bool.and_eq_true_iff.1 hrun
  have hback := run_reversible hd addedAndProtected
  rw [Option.isNone_iff_eq_none] at hadd hrename
  obtain ⟨hdelete, -⟩ := hback.added (.add "A" [1, 2] .program) "A" rfl hadd
  exact ⟨d, hd, hadd, hdelete, hrename, hback.renamed "B" "C" hrename⟩

end Disk

end TiBench.Volume
