import TiBench.Proofs.Disk.Order
import TiBench.Proofs.Disk.RoundTrip

/-!
# A ledger of files

What the operations tell of each file, without a look at the disk: its format, how many data sectors
and records it has, whether it is protected, and when it was added. After any operations the disk
has the files of the ledger, and what their descriptors and data say is what the ledger says.
-/

namespace TiBench.Volume

/-- What the operations tell of a file. -/
structure Filed where
  format : FileFormat
  dataSectors : Nat
  records : Nat
  isProtected : Bool
  added : Timestamp

/-- The clock and the files by their names. -/
structure Ledger where
  clock : Timestamp
  files : String → Option Filed

namespace Ledger

/-- No files. -/
def blank (clock : Timestamp) : Ledger := ⟨clock, fun _ => none⟩

/-- The number of sectors into which records are encoded. -/
def sectorsFor (f : RecordFormat) (records : List Bytes) : Nat :=
  ((f.encode records).toOption.map (·.sectors.length)).getD 0

/-- The number of records that raw sectors with a count of the caller's choice hold. -/
def rawRecords (f : FileFormat) (raw : Bytes) (count : UInt16) : Nat :=
  match f with
  | .program => 0
  | .records r =>
    match r.family with
    | .fixed => count.toNat
    | .variable => (r.decode count.toNat ((Disk.sectorsOf raw).map Block.bytes)).length

/-- The ledger with a new file. -/
def file (l : Ledger) (name : String) (f : FileFormat) (dataSectors records : Nat) : Ledger :=
  { l with files := Function.update l.files name (some ⟨f, dataSectors, records, false, l.clock⟩) }

/-- The ledger after an operation that is not refused. -/
def apply (l : Ledger) : Operation → Ledger
  | .add name data .program => l.file name .program (Disk.sectorsOf data).length 0
  | .add name data (.records r) =>
    let records := Payload.pieces r data
    l.file name (.records r) (sectorsFor r records) records.length
  | .addRecords _ _ .program => l
  | .addRecords name records (.records r) =>
    l.file name (.records r) (sectorsFor r records) records.length
  | .addSpecial name raw f count =>
    l.file name f (Disk.sectorsOf raw).length (rawRecords f raw count)
  | .delete name => { l with files := Function.update l.files name none }
  | .rename old new =>
    { l with files := Function.update (Function.update l.files old none) new (l.files old) }
  | .protect name on =>
    { l with files :=
        Function.update l.files name ((l.files name).map ({ · with isProtected := on })) }
  | .setClock t => { l with clock := t }

/-- The ledger after operations that are not refused. -/
def run (l : Ledger) (ops : List Operation) : Ledger := ops.foldl apply l

end Ledger

namespace Disk

variable {d d' : Disk}

/-! ## Files as they are stored -/

/-- The number of records of a file, as a catalog counts them. -/
def Stored.recordCount (s : Stored) : Nat :=
  match s.file.format? with
  | none | some .program => 0
  | some (.records f) =>
    match f.family with
    | .fixed => s.file.count.toNat
    | .variable => (f.decode s.file.count.toNat s.data).length

theorem Stored.listedRecords_reading (s : Stored) (name : String) :
    listedRecords s.file (s.reading name) = s.recordCount := by
  rw [listedRecords, recordCount]
  cases hformat : s.file.format? with
  | none => rfl
  | some f =>
      cases f with
      | program => rfl
      | records f =>
          rw [reading_of_records hformat]
          dsimp only
          cases f.family <;> rfl

theorem Stored.recordCount_protect (file : Descriptor) (on : Bool) (data : List Bytes) :
    recordCount ⟨file.protect on, data⟩ = recordCount ⟨file, data⟩ := by
  rw [recordCount, recordCount, file.format?_protect]
  rfl

/-- The descriptor and the data of a file say what the ledger says. -/
structure Describes (f : Filed) (s : Stored) : Prop where
  format_eq : s.file.format? = some f.format
  dataSectors_eq : s.file.dataSectors.toNat = f.dataSectors
  length_eq : s.data.length = f.dataSectors
  records_eq : s.recordCount = f.records
  isProtected_eq : s.file.isProtected = f.isProtected
  updated_eq : s.file.updated = f.added.pack

theorem Describes.protect {f : Filed} {file : Descriptor} {data : List Bytes}
    (h : Describes f ⟨file, data⟩) (on : Bool) :
    Describes { f with isProtected := on } ⟨file.protect on, data⟩ :=
  ⟨(file.format?_protect on).trans h.format_eq, h.dataSectors_eq, h.length_eq,
    (Stored.recordCount_protect file on data).trans h.records_eq, file.isProtected_protect on,
    h.updated_eq⟩

/-! ## Contents of new files -/

/-- The contents are in a format, of which they have so many sectors and records. -/
structure Contents.Holds (c : Contents) (f : FileFormat) (sectors records : Nat) : Prop where
  flags_eq : ∃ u : Bool,
    c.flags = if u then Descriptor.unterminatedFlag else 0
  length_eq : c.sectors.length = sectors
  records_eq : (c.stored f).recordCount = records

theorem Contents.format?_stored {c : Contents} {u : Bool}
    (h : c.flags = if u then Descriptor.unterminatedFlag else 0) (f : FileFormat) :
    (c.stored f).file.flags = Descriptor.newFlags f u
      ∧ (c.stored f).file.format? = some f := by
  have hflags : (c.stored f).file.flags = Descriptor.newFlags f u :=
    congrArg (Descriptor.formatFlags f ||| ·) h
  exact ⟨hflags, Descriptor.format?_of_newFlags hflags rfl⟩

/-- Records that were encoded are counted again, whatever their format. -/
theorem Contents.holds_of_encode {r : RecordFormat} {records : List Bytes} {e : Record.Encoded}
    (he : r.encode records = .ok e) {c : Contents} {u : Bool}
    (hflags : c.flags = if u then Descriptor.unterminatedFlag else 0)
    (hsectors : c.sectors = e.sectors) (hcount : c.count = e.count) :
    c.Holds (.records r) (Ledger.sectorsFor r records) records.length := by
  refine ⟨⟨u, hflags⟩, ?_, ?_⟩
  · rw [hsectors, Ledger.sectorsFor, he]
    rfl
  · rw [Stored.recordCount, (format?_stored hflags _).2]
    change (match r.family with
      | .fixed => c.count.toNat
      | .variable => (r.decode c.count.toNat (c.sectors.map Block.bytes)).length) = records.length
    rw [hcount, hsectors, RecordFormat.decode_of_encode he, List.length_map]
    rcases hf : r.family with _ | _
    · rw [(RecordFormat.count_of_encode he).1, RecordFormat.countOf, hf]
    · rfl

theorem holds_contentsOf_program {data : Bytes} {c : Contents}
    (h : contentsOf .program data = .ok c) : c.Holds .program (sectorsOf data).length 0 := by
  obtain rfl := Except.ok.inj h
  refine ⟨⟨false, rfl⟩, rfl, ?_⟩
  rw [Stored.recordCount, (Contents.format?_stored (u := false) rfl _).2]

theorem holds_contentsOf_records {r : RecordFormat} {data : Bytes} {c : Contents}
    (h : contentsOf (.records r) data = .ok c) :
    c.Holds (.records r) (Ledger.sectorsFor r (Payload.pieces r data))
      (Payload.pieces r data).length := by
  obtain ⟨e, -, he, rfl⟩ := contentsOf_records_eq_ok h
  refine Contents.holds_of_encode he
    (u := decide (r.content = .display ∧ unterminated data = true)) ?_
    (sectors_contentsWith r data e) (count_contentsWith r data e)
  rw [flags_contentsWith]
  simp only [decide_eq_true_eq]

theorem holds_contentsOfRecords {r : RecordFormat} {records : List Bytes} {c : Contents}
    (h : contentsOfRecords (.records r) records = .ok c) :
    c.Holds (.records r) (Ledger.sectorsFor r records) records.length := by
  obtain ⟨e, he, rfl⟩ := contentsOfRecords_eq_ok.1 h
  exact Contents.holds_of_encode he (u := false) rfl rfl rfl

theorem holds_special (f : FileFormat) (raw : Bytes) (count : UInt16) :
    (Contents.mk (sectorsOf raw) (eofOf raw) count 0).Holds f (sectorsOf raw).length
      (Ledger.rawRecords f raw count) := by
  refine ⟨⟨false, rfl⟩, rfl, ?_⟩
  rw [Stored.recordCount, (Contents.format?_stored (u := false) rfl _).2]
  cases f <;> rfl

/-! ## Clocks -/

theorem clock_putSectors (d : Disk) (ws : List (Nat × Sector)) :
    (d.putSectors ws).clock = d.clock := by
  induction ws generalizing d with
  | nil => rfl
  | cons w ws ih => rw [putSectors_cons, ih]; rfl

theorem clock_adding {name : String} {f : FileFormat} {c : Except VolumeError Contents}
    (h : (d.adding name f c).error? = none) : (d.adding name f c).disk.clock = d.clock := by
  obtain ⟨contents, -, hadd⟩ := Result.bind_eq_ok.1 (Change.eq_ok_of_ofExcept h)
  obtain ⟨_, _, _, -, -, -, -, -, -, hdisk⟩ := addFile_eq_ok hadd
  exact (congrArg clock hdisk).trans (clock_putSectors d _)

theorem clock_delete (hd : d.Consistent) {name : String} (h : (d.delete name).error? = none) :
    (d.delete name).disk.clock = d.clock := by
  obtain ⟨e, he, hfree, -⟩ := delete_removed hd h
  rw [delete_eq he, if_neg (Bool.not_eq_true _ ▸ hfree)]
  rfl

theorem clock_rename (hd : d.Consistent) {old new : String}
    (h : (d.rename old new).error? = none) : (d.rename old new).disk.clock = d.clock := by
  obtain ⟨_, _, -, -, hdisk⟩ := disk_rename_of_accepted hd.indexSector_not_mem_pointers h
  rw [hdisk]
  rfl

theorem clock_protect (hd : d.Consistent) {name : String} {on : Bool}
    (h : (d.protect name on).error? = none) : (d.protect name on).disk.clock = d.clock := by
  obtain ⟨_, he, -⟩ := protect_rewritten hd h
  rw [protect_eq he]
  rfl

end Disk

/-! ## The ledger of a disk -/

namespace Ledger

open Disk

variable {d d' : Disk} {l l' : Ledger}

/-- The disk has the clock and the files of the ledger. -/
structure Tells (l : Ledger) (d : Disk) : Prop where
  clock_eq : d.clock = l.clock
  filed : ∀ e ∈ d.files, ∃ f, l.files e.file.fileName = some f ∧ Describes f (d.stored e)
  listed : ∀ name, l.files name ≠ none → name ∈ d.names

/-- Files are exchanged on the disk as in the ledger, and no other file is concerned. -/
theorem Tells.exchange {old new rest : List Entry} (h : l.Tells d)
    (hex : Exchanges d d' old new rest) (hd : d.Clean) (hd' : d'.Clean)
    (hclock : d'.clock = l'.clock)
    (hkept : ∀ s, (∀ e ∈ old, e.file.fileName ≠ s) → (∀ e ∈ new, e.file.fileName ≠ s) →
      l'.files s = l.files s)
    (hnew : ∀ e ∈ new, ∃ f, l'.files e.file.fileName = some f ∧ Describes f (d'.stored e))
    (hgone : ∀ e ∈ old, (∀ x ∈ new, x.file.fileName ≠ e.file.fileName) →
      l'.files e.file.fileName = none) : l'.Tells d' := by
  have hnodup := hex.nodup_names hd
  have hnodup' : (new.map (·.file.fileName) ++ rest.map (·.file.fileName)).Nodup := by
    rw [← List.map_append]
    exact (hex.files_perm'.map _).nodup_iff.1 hd'.nodup_names
  refine ⟨hclock, fun e he => ?_, fun s hs => ?_⟩
  · rcases List.mem_append.1 (hex.files_perm'.mem_iff.1 he) with he | he
    · exact hnew e he
    · obtain ⟨f, hf, hdescribes⟩ :=
        h.filed e (hex.files_perm.mem_iff.2 (List.mem_append_right _ he))
      have hmem := List.mem_map_of_mem (f := fun e : Entry => e.file.fileName) he
      refine ⟨f, ?_, hex.stored_eq e he ▸ hdescribes⟩
      rw [hkept _ (fun o ho hname => ?_) (fun o ho hname => ?_), hf]
      · exact (List.nodup_append.1 hnodup).2.2 _ (List.mem_map_of_mem ho) _ hmem hname
      · exact (List.nodup_append.1 hnodup').2.2 _ (List.mem_map_of_mem ho) _ hmem hname
  · by_cases hin : ∃ x ∈ new, x.file.fileName = s
    · obtain ⟨x, hx, rfl⟩ := hin
      exact mem_names.2 ⟨x, hex.files_perm'.mem_iff.2 (List.mem_append_left _ hx), rfl⟩
    · have hin' : ∀ x ∈ new, x.file.fileName ≠ s := fun x hx hname => hin ⟨x, hx, hname⟩
      by_cases hout : ∃ e ∈ old, e.file.fileName = s
      · obtain ⟨e, he, rfl⟩ := hout
        exact absurd (hgone e he hin') hs
      · rw [hkept s (fun e he hname => hout ⟨e, he, hname⟩) hin'] at hs
        obtain ⟨e, he, rfl⟩ := mem_names.1 (h.listed s hs)
        rcases List.mem_append.1 (hex.files_perm.mem_iff.1 he) with he | he
        · exact absurd ⟨e, he, rfl⟩ hout
        · exact mem_names.2 ⟨e, hex.files_perm'.mem_iff.2 (List.mem_append_right _ he), rfl⟩

theorem Tells.adding (h : l.Tells d) (hd : d.Clean) {name : String} {f : FileFormat}
    {c : Except VolumeError Contents} (hacc : (d.adding name f c).error? = none)
    {sectors records : Nat}
    (hc : ∀ contents, c = .ok contents → contents.Holds f sectors records) :
    (l.file name f sectors records).Tells (d.adding name f c).disk := by
  have hclean := (hd.adding hacc).1
  have hclock := (clock_adding hacc).trans h.clock_eq
  obtain ⟨contents, field, p, rfl, hname, hfree, hplace, hsectors, hadded⟩ :=
    adding_added hd.consistent hacc
  have hp := fits_of_place? hplace
  obtain ⟨⟨u, hflags⟩, hlength, hrecords⟩ := hc contents rfl
  obtain ⟨hnew, hformat⟩ := Contents.format?_stored hflags f
  have hfile : (d.newDescriptor field f contents p.data).fileName = name :=
    unpackName_of_packName hname
  have hdata : ((d.adding name f (.ok contents)).disk.stored
      ⟨p.descriptor, d.newDescriptor field f contents p.data⟩).data
      = contents.sectors.map Block.bytes := by
    rw [stored, hsectors, ← hadded.data_eq, List.map_map]
    rfl
  have hdescribes : Describes ⟨f, sectors, records, false, l.clock⟩
      ⟨d.newDescriptor field f contents p.data, contents.sectors.map Block.bytes⟩ := by
    constructor
    case format_eq => exact hformat
    case dataSectors_eq =>
      change (UInt16.ofNat p.data.length).toNat = sectors
      rw [← hlength, ← hp.length_data]
      exact UInt16.toNat_ofNat_of_lt' (Nat.lt_of_le_of_lt hp.length_data_le (by decide))
    case length_eq => rw [List.length_map, hlength]
    case records_eq => exact hrecords
    case isProtected_eq => exact Descriptor.isProtected_of_newFlags hnew
    case updated_eq => exact congrArg Timestamp.pack h.clock_eq
  refine h.exchange (hadded.exchanges hd.consistent hp) hd hclean hclock (fun s _ hs => ?_)
    (fun e he => ?_) (fun e he => absurd he List.not_mem_nil)
  · have hne := hs _ List.mem_cons_self
    exact Function.update_of_ne (fun hse => hne (hfile.trans hse.symm)) _ _
  · rw [List.mem_singleton.1 he, hfile]
    refine ⟨_, Function.update_self .., ?_⟩
    rw [← hdata] at hdescribes
    exact hdescribes

theorem Tells.delete (h : l.Tells d) (hd : d.Clean) {name : String}
    (hacc : (d.delete name).error? = none) :
    (l.apply (.delete name)).Tells (d.delete name).disk := by
  have hclean := (hd.delete hacc).1
  obtain ⟨e, rfl, hex⟩ := delete_exchanges hd.consistent hacc
  refine h.exchange hex hd hclean ((clock_delete hd.consistent hacc).trans h.clock_eq)
    (fun s hs _ => ?_) (fun x hx => absurd hx List.not_mem_nil) (fun f hf _ => ?_)
  · exact Function.update_of_ne (hs e List.mem_cons_self).symm _ _
  · rw [List.mem_singleton.1 hf]
    exact Function.update_self ..

theorem Tells.rename (h : l.Tells d) (hd : d.Clean) {old new : String}
    (hacc : (d.rename old new).error? = none) :
    (l.apply (.rename old new)).Tells (d.rename old new).disk := by
  have hclean := (hd.rename hacc).1
  have hclock := (clock_rename hd.consistent hacc).trans h.clock_eq
  obtain ⟨field, e, hname, he, -, hrewritten⟩ := rename_rewritten hd.consistent hacc
  obtain ⟨hmem, rfl⟩ := mem_files_of_find he
  have hfile : Descriptor.fileName { e.file with name := field } = new :=
    unpackName_of_packName hname
  obtain ⟨f, hf, hdescribes⟩ := h.filed e hmem
  refine h.exchange (hrewritten.exchanges hd.consistent hmem) hd hclean hclock
    (fun s hold hnew => ?_) (fun x hx => ?_) (fun x hx hne => ?_)
  · have hsn : s ≠ new := fun hsn => hnew _ List.mem_cons_self (hfile.trans hsn.symm)
    exact (Function.update_of_ne hsn _ _).trans
      (Function.update_of_ne (hold e List.mem_cons_self).symm _ _)
  · rw [List.mem_singleton.1 hx, hfile]
    refine ⟨f, (Function.update_self ..).trans hf, ?_⟩
    rw [hrewritten.stored_eq hd.consistent hmem rfl]
    obtain ⟨h1, h2, h3, h4, h5, h6⟩ := hdescribes
    exact ⟨h1, h2, h3, h4, h5, h6⟩
  · obtain rfl := List.mem_singleton.1 hx
    have hne : x.file.fileName ≠ new := fun hxn =>
      hne _ List.mem_cons_self (hfile.trans hxn.symm)
    exact (Function.update_of_ne hne _ _).trans (Function.update_self ..)

theorem Tells.protect (h : l.Tells d) (hd : d.Clean) {name : String} {on : Bool}
    (hacc : (d.protect name on).error? = none) :
    (l.apply (.protect name on)).Tells (d.protect name on).disk := by
  have hclean := (hd.protect hacc).1
  have hclock := (clock_protect hd.consistent hacc).trans h.clock_eq
  obtain ⟨e, he, hrewritten⟩ := protect_rewritten hd.consistent hacc
  obtain ⟨hmem, rfl⟩ := mem_files_of_find he
  obtain ⟨f, hf, hdescribes⟩ := h.filed e hmem
  refine h.exchange (hrewritten.exchanges hd.consistent hmem) hd hclean hclock
    (fun s hold _ => ?_) (fun x hx => ?_) (fun x hx hne => ?_)
  · exact Function.update_of_ne (hold e List.mem_cons_self).symm _ _
  · obtain rfl := List.mem_singleton.1 hx
    refine ⟨{ f with isProtected := on }, ?_, ?_⟩
    · refine (Function.update_self ..).trans ?_
      rw [hf]
    · rw [hrewritten.stored_eq hd.consistent hmem rfl]
      exact hdescribes.protect on
  · obtain rfl := List.mem_singleton.1 hx
    exact absurd rfl (hne ⟨x.sector, x.file.protect on⟩ List.mem_cons_self)

/-- An operation that is not refused does to the disk what it does to the ledger. -/
theorem Tells.apply (h : l.Tells d) (hd : d.Clean) {op : Operation}
    (hacc : (d.apply op).error? = none) : (l.apply op).Tells (d.apply op).disk := by
  cases op with
  | add name data f =>
      cases f with
      | program => exact h.adding hd hacc fun _ => holds_contentsOf_program
      | records r => exact h.adding hd hacc fun _ => holds_contentsOf_records
  | addRecords name records f =>
      rw [Disk.apply, addRecords_eq] at hacc ⊢
      cases f with
      | program => cases hacc
      | records r => exact h.adding hd hacc fun _ => holds_contentsOfRecords
  | addSpecial name raw f count =>
      refine h.adding hd (c := .ok _) hacc fun _ hc => ?_
      rw [← Except.ok.inj hc]
      exact holds_special f raw count
  | delete name => exact h.delete hd hacc
  | rename old new => exact h.rename hd hacc
  | protect name on => exact h.protect hd hacc
  | setClock t => exact ⟨rfl, h.filed, h.listed⟩

theorem Tells.run (h : l.Tells d) (hd : d.Clean) (ops : List Operation) :
    (l.run (d.accepted ops)).Tells (d.run ops) := by
  induction ops generalizing d l with
  | nil => exact h
  | cons op ops ih =>
      rw [run_cons, accepted]
      by_cases hacc : (d.apply op).error? = none
      · rw [if_pos hacc]
        exact ih (h.apply hd hacc) (hd.apply op)
      · rw [if_neg hacc, hd.disk_apply_of_refused hacc]
        exact ih h hd

theorem tells_init {clock : Timestamp} {name : String} {sectors : Nat} {sides density : UInt8}
    (h : init clock name sectors sides density = .ok d) : (blank clock).Tells d := by
  obtain ⟨-, hfiles⟩ := consistent_init h
  refine ⟨?_, fun e he => ?_, fun s hs => absurd rfl hs⟩
  · unfold init at h
    split at h
    · cases h
    · split at h
      · obtain rfl := Except.ok.inj h
        rfl
      · cases h
  · rw [hfiles] at he
    exact absurd he List.not_mem_nil

end Ledger

end TiBench.Volume
