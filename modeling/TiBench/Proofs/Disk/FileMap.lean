import TiBench.Proofs.Disk.Refusal

/-!
# A disk as a map from names to files

To those who read files by their names, a clean disk is a map from names to readings: each
operation that is not refused updates the map at the names it is given, and leaves the rest of it
alone.
-/

namespace TiBench.Volume

/-- The names that an operation is given. -/
def Operation.names : Operation → List String
  | .add name _ _ => [name]
  | .addRecords name _ _ => [name]
  | .addSpecial name _ _ _ => [name]
  | .delete name => [name]
  | .rename old new => [old, new]
  | .protect name _ => [name]
  | .setClock _ => []

namespace Disk

open scoped List

variable {d d' : Disk}

/-! ## Operations as exchanges -/

theorem adding_exchanges (hd : d.Consistent) {name : String} {f : FileFormat}
    {c : Except VolumeError Contents} (h : (d.adding name f c).error? = none) :
    ∃ contents x, c = .ok contents ∧ contents.sectors.length ≤ maxSectors
      ∧ x.file.fileName = name ∧ name ∉ d.names
      ∧ Exchanges d (d.adding name f c).disk [] [x] d.files
      ∧ ((d.adding name f c).disk.stored x).reading name = (contents.stored f).reading name := by
  obtain ⟨contents, field, p, hc, hname, hnew, hplace, hsectors, hadded⟩ := adding_added hd h
  have hp := fits_of_place? hplace
  refine ⟨contents, ⟨p.descriptor, d.newDescriptor field f contents p.data⟩, hc,
    hp.length_data ▸ hp.length_data_le, unpackName_of_packName hname, ?_, hadded.exchanges hd hp,
    hadded.reading_stored hp hsectors name⟩
  intro hmem
  obtain ⟨e, he, hen⟩ := mem_names.1 hmem
  exact hnew e he hen

theorem delete_exchanges (hd : d.Consistent) {name : String}
    (h : (d.delete name).error? = none) :
    ∃ e, e.file.fileName = name
      ∧ Exchanges d (d.delete name).disk [e] [] (d.delete name).disk.files := by
  obtain ⟨e, he, -, hremoved⟩ := delete_removed hd h
  obtain ⟨hmem, hname⟩ := mem_files_of_find he
  exact ⟨e, hname, hremoved.exchanges hd hmem⟩

theorem rename_exchanges (hd : d.Consistent) {old new : String}
    (h : (d.rename old new).error? = none) :
    ∃ e x rest, e ∈ d.files ∧ e.file.fileName = old ∧ x.file.fileName = new
      ∧ (old ≠ new → new ∉ d.names) ∧ Exchanges d (d.rename old new).disk [e] [x] rest
      ∧ ∀ s, ((d.rename old new).disk.stored x).reading s = (d.stored e).reading s := by
  obtain ⟨field, e, hname, he, hfree, hrewritten⟩ := rename_rewritten hd h
  obtain ⟨hmem, hold⟩ := mem_files_of_find he
  refine ⟨e, ⟨e.sector, { e.file with name := field }⟩, _, hmem, hold,
    unpackName_of_packName hname, fun hne hmem => ?_, hrewritten.exchanges hd hmem, fun s => ?_⟩
  · obtain ⟨f, hf, hfn⟩ := mem_names.1 hmem
    exact hfree hne f hf hfn
  · rw [hrewritten.stored_eq hd hmem rfl]
    refine Stored.reading_congr ?_ ?_ ?_ ?_ ?_ ?_ s <;> rfl

theorem protect_exchanges (hd : d.Consistent) {name : String} {on : Bool}
    (h : (d.protect name on).error? = none) :
    ∃ e x rest, e ∈ d.files ∧ e.file.fileName = name ∧ x.file.fileName = name
      ∧ x.file.isProtected = on ∧ Exchanges d (d.protect name on).disk [e] [x] rest
      ∧ ∀ s, ((d.protect name on).disk.stored x).reading s = (d.stored e).reading s := by
  obtain ⟨e, he, hrewritten⟩ := protect_rewritten hd h
  obtain ⟨hmem, hname⟩ := mem_files_of_find he
  refine ⟨e, ⟨e.sector, e.file.protect on⟩, _, hmem, hname, hname, e.file.isProtected_protect on,
    hrewritten.exchanges hd hmem, fun s => ?_⟩
  rw [hrewritten.stored_eq hd hmem rfl, reading_protect]; rfl

/-! ## Updates of the map -/

/-- The readings after a file of these contents was written under a name. -/
def written (m : String → Reading) (name : String) (f : FileFormat) :
    Except VolumeError Contents → String → Reading
  | .ok c => Function.update m name ((c.stored f).reading name)
  | .error _ => m

/-- The readings after an operation that is not refused. -/
def updated (m : String → Reading) : Operation → String → Reading
  | .add name data f => written m name f (contentsOf f data)
  | .addRecords name records f => written m name f (contentsOfRecords f records)
  | .addSpecial name raw f count => written m name f (.ok ⟨sectorsOf raw, eofOf raw, count, 0⟩)
  | .delete name => Function.update m name (.missing name)
  | .rename old new =>
    Function.update (Function.update m old (.missing old)) new ((m old).renamed new)
  | .protect _ _ => m
  | .setClock _ => m

theorem written_of_ne {m : String → Reading} {name s : String} (h : s ≠ name) (f : FileFormat)
    (c : Except VolumeError Contents) : written m name f c s = m s := by
  cases c with
  | ok c => exact Function.update_of_ne h _ _
  | error e => rfl

/-- An operation leaves the reading of every name that it is not given as it was. -/
theorem updated_of_not_mem_names {m : String → Reading} {op : Operation} {s : String}
    (h : s ∉ op.names) : updated m op s = m s := by
  cases op with
  | add name data f => exact written_of_ne (List.mem_singleton.not.1 h) f _
  | addRecords name records f => exact written_of_ne (List.mem_singleton.not.1 h) f _
  | addSpecial name raw f count =>
      exact written_of_ne (List.mem_singleton.not.1 h) f (.ok ⟨sectorsOf raw, eofOf raw, count, 0⟩)
  | delete name => exact Function.update_of_ne (List.mem_singleton.not.1 h) _ _
  | rename old new =>
      rw [Operation.names, List.mem_cons, List.mem_singleton, not_or] at h
      rw [updated, Function.update_of_ne h.2, Function.update_of_ne h.1]
  | protect name on => rfl
  | setClock t => rfl

/-! ## One operation -/

theorem Clean.adding (hd : d.Clean) {name : String} {f : FileFormat}
    {c : Except VolumeError Contents} (h : (d.adding name f c).error? = none) :
    (d.adding name f c).disk.Clean
      ∧ (d.adding name f c).disk.reading = written d.reading name f c := by
  obtain ⟨contents, x, rfl, -, hname, hnew, hex, hreading⟩ := adding_exchanges hd.consistent h
  have hclean : (d.adding name f (.ok contents)).disk.Clean := by
    refine hex.clean (hd.consistent.adding name f _) (List.nodup_cons.2 ⟨?_, hd.nodup_names⟩)
    exact fun hmem => hnew (hname ▸ hmem)
  refine ⟨hclean, ?_⟩
  rw [hex.reading_added hd hclean, hname, hreading]; rfl

theorem Clean.delete (hd : d.Clean) {name : String} (h : (d.delete name).error? = none) :
    (d.delete name).disk.Clean
      ∧ (d.delete name).disk.reading = Function.update d.reading name (.missing name) := by
  have hcons : (d.delete name).disk.Consistent := hd.consistent.apply (.delete name)
  obtain ⟨e, rfl, hex⟩ := delete_exchanges hd.consistent h
  have hclean := hex.clean_of_removed hd hcons
  exact ⟨hclean, hex.reading_removed hd hclean⟩

theorem Clean.rename (hd : d.Clean) {old new : String} (h : (d.rename old new).error? = none) :
    (d.rename old new).disk.Clean ∧ (d.rename old new).disk.reading
      = Function.update (Function.update d.reading old (.missing old)) new
        ((d.reading old).renamed new) := by
  have hcons : (d.rename old new).disk.Consistent := hd.consistent.apply (.rename old new)
  obtain ⟨e, x, rest, he, rfl, rfl, hfree, hex, hreading⟩ := rename_exchanges hd.consistent h
  -- Renaming a file to its own name looks for no other file of that name.
  have hname : x.file.fileName = e.file.fileName ∨ x.file.fileName ∉ d.names := by
    by_cases hne : e.file.fileName = x.file.fileName
    · exact Or.inl hne.symm
    · exact Or.inr (hfree hne)
  have hclean := hex.clean_of_replaced hd hcons hname
  refine ⟨hclean, ?_⟩
  rw [hex.reading_replaced hd hclean, hreading, hd.reading_of_mem he, Stored.renamed_reading]

theorem Clean.protect (hd : d.Clean) {name : String} {on : Bool}
    (h : (d.protect name on).error? = none) :
    (d.protect name on).disk.Clean ∧ (d.protect name on).disk.reading = d.reading := by
  have hcons : (d.protect name on).disk.Consistent := hd.consistent.apply (.protect name on)
  obtain ⟨e, x, rest, he, rfl, hname, -, hex, hreading⟩ := protect_exchanges hd.consistent h
  have hclean := hex.clean_of_replaced hd hcons (Or.inl hname)
  refine ⟨hclean, ?_⟩
  rw [hex.reading_replaced hd hclean, hname, hreading, ← hd.reading_of_mem he,
    Function.update_idem, Function.update_eq_self]

/-- An operation that is not refused leaves a clean disk, and updates the map. -/
theorem Clean.apply_of_accepted (hd : d.Clean) {op : Operation} (h : (d.apply op).error? = none) :
    (d.apply op).disk.Clean ∧ (d.apply op).disk.reading = updated d.reading op := by
  cases op with
  | add name data f =>
      rw [Disk.apply, add_eq] at h ⊢
      exact hd.adding h
  | addRecords name records f =>
      rw [Disk.apply, addRecords_eq] at h ⊢
      exact hd.adding h
  | addSpecial name raw f count =>
      rw [Disk.apply, addSpecial_eq] at h ⊢
      exact hd.adding h
  | delete name => exact hd.delete h
  | rename old new => exact hd.rename h
  | protect name on => exact hd.protect h
  | setClock t =>
      exact ⟨clean_iff.2 ⟨hd.consistent.apply (.setClock t), hd.nodup_names⟩, rfl⟩

theorem Clean.disk_apply_of_refused (hd : d.Clean) {op : Operation}
    (h : (d.apply op).error? ≠ none) : (d.apply op).disk = d :=
  Disk.disk_apply_of_refused (fun _ _ _ => hd.consistent.indexSector_not_mem_pointers) h

theorem Clean.apply (hd : d.Clean) (op : Operation) : (d.apply op).disk.Clean := by
  by_cases h : (d.apply op).error? = none
  · exact (hd.apply_of_accepted h).1
  · rw [hd.disk_apply_of_refused h]; exact hd

theorem Clean.reading_apply_of_not_mem (hd : d.Clean) {op : Operation} {s : String}
    (hs : s ∉ op.names) : (d.apply op).disk.reading s = d.reading s := by
  by_cases h : (d.apply op).error? = none
  · rw [(hd.apply_of_accepted h).2, updated_of_not_mem_names hs]
  · rw [hd.disk_apply_of_refused h]

/-! ## Runs -/

/-- The operations of a run that are not refused. -/
def accepted (d : Disk) : List Operation → List Operation
  | [] => []
  | op :: ops =>
    if (d.apply op).error? = none then op :: (d.apply op).disk.accepted ops
    else (d.apply op).disk.accepted ops

/-- A run of operations leaves a clean disk, and updates the map by those that are not refused. -/
theorem Clean.run (hd : d.Clean) (ops : List Operation) :
    (d.run ops).Clean ∧ (d.run ops).reading = (d.accepted ops).foldl updated d.reading := by
  induction ops generalizing d with
  | nil => exact ⟨hd, rfl⟩
  | cons op ops ih =>
      obtain ⟨hclean, hreading⟩ := ih (hd.apply op)
      refine ⟨hclean, ?_⟩
      rw [run_cons, hreading, accepted]
      by_cases h : (d.apply op).error? = none
      · rw [if_pos h, List.foldl_cons, (hd.apply_of_accepted h).2]
      · rw [if_neg h, hd.disk_apply_of_refused h]

theorem clean_init {clock : Timestamp} {name : String} {sectors : Nat} {sides density : UInt8}
    (h : init clock name sectors sides density = .ok d) : d.Clean := by
  obtain ⟨hd, hfiles⟩ := consistent_init h
  exact clean_iff.2 ⟨hd, by rw [names, hfiles]; exact List.nodup_nil⟩

/-! ## Protection -/

theorem error?_adding_congr (hd : d.Consistent) (hd' : d'.Consistent)
    (hnames : d'.names ~ d.names) (htotal : d'.total = d.total) (hbitmap : d'.bitmap = d.bitmap)
    (name : String) (f : FileFormat) (c : Except VolumeError Contents) :
    (d'.adding name f c).error? = (d.adding name f c).error? := by
  have hroom (n : Nat) : d'.roomError? n = d.roomError? n := by
    rw [roomError?, roomError?, place?, place?, htotal, hbitmap, hnames.length_eq]
  rw [error?_adding hd, error?_adding hd']
  cases c with
  | error e => rfl
  | ok c => simp only [hnames.mem_iff, hroom]

/-- Clean disks with files of the same names and the same sectors in use refuse the same operations
for the same reasons, if they do so for deleting. -/
theorem Clean.error?_apply_congr (hd : d.Clean) (hd' : d'.Clean) (hnames : d'.names ~ d.names)
    (htotal : d'.total = d.total) (hbitmap : d'.bitmap = d.bitmap) {op : Operation}
    (hdelete : ∀ name, op = .delete name → (d'.delete name).error? = (d.delete name).error?) :
    (d'.apply op).error? = (d.apply op).error? := by
  cases op with
  | add m data f =>
      exact error?_adding_congr hd.consistent hd'.consistent hnames htotal hbitmap ..
  | addRecords m records f =>
      rw [Disk.apply, Disk.apply, addRecords_eq, addRecords_eq]
      exact error?_adding_congr hd.consistent hd'.consistent hnames htotal hbitmap ..
  | addSpecial m raw f count =>
      rw [Disk.apply, Disk.apply, addSpecial_eq, addSpecial_eq]
      exact error?_adding_congr hd.consistent hd'.consistent hnames htotal hbitmap ..
  | delete m => exact hdelete m rfl
  | rename old new =>
      rw [Disk.apply, Disk.apply, error?_rename hd.consistent, error?_rename hd'.consistent]
      simp only [hnames.mem_iff]
  | protect m on =>
      rw [Disk.apply, Disk.apply, error?_protect hd.consistent, error?_protect hd'.consistent]
      simp only [hnames.mem_iff]
  | setClock t => rfl

/-- Protecting a file or taking its protection off matters for deleting that file only. -/
theorem Clean.error?_apply_protect (hd : d.Clean) {name : String} {on : Bool}
    (h : (d.protect name on).error? = none) {op : Operation} (hop : op ≠ .delete name) :
    ((d.protect name on).disk.apply op).error? = (d.apply op).error? := by
  have hclean := (hd.protect h).1
  obtain ⟨_, -, hrewritten⟩ := protect_rewritten hd.consistent h
  have htotal := hrewritten.total_eq
  have hbitmap := hrewritten.bitmap_eq
  obtain ⟨e, x, rest, he, rfl, hname, -, hex, -⟩ := protect_exchanges hd.consistent h
  generalize (d.protect e.file.fileName on).disk = d' at *
  have hnames : d'.names ~ d.names := by
    have hold := hex.files_perm.map fun f : Entry => f.file.fileName
    have hnew := hex.files_perm'.map fun f : Entry => f.file.fileName
    rw [List.cons_append, List.map_cons] at hold hnew
    rw [hname] at hnew
    exact hnew.trans hold.symm
  refine hd.error?_apply_congr hclean hnames htotal hbitmap fun m hm => ?_
  subst hm
  by_cases hmem : m ∈ d.names
  · obtain ⟨f, hf, rfl⟩ := mem_names.1 hmem
    have hrest : f ∈ rest := by
      rcases List.mem_cons.1 (hex.files_perm.mem_iff.1 hf) with rfl | hf
      · exact absurd rfl hop
      · exact hf
    rw [hd.error?_delete hf,
      hclean.error?_delete (hex.files_perm'.mem_iff.2 (List.mem_cons_of_mem _ hrest))]
  · rw [error?_delete_of_not_mem hd.consistent hmem,
      error?_delete_of_not_mem hclean.consistent fun hmem' => hmem (hnames.mem_iff.1 hmem')]

theorem Clean.error?_delete_protect (hd : d.Clean) {name : String} {on : Bool}
    (h : (d.protect name on).error? = none) : ((d.protect name on).disk.delete name).error?
      = if on then some (.fileProtected name) else none := by
  have hclean := (hd.protect h).1
  obtain ⟨e, x, rest, -, -, rfl, hprotected, hex, -⟩ := protect_exchanges hd.consistent h
  rw [hclean.error?_delete (hex.files_perm'.mem_iff.2 List.mem_cons_self), hprotected]

/-! ## What the operations do -/

/-- What the operations do to a disk, as far as the names of files tell it. -/
structure ActsByName (d : Disk) : Prop where
  /-- Any run of operations updates the map from names to readings, and keeps the disk clean. -/
  run : ∀ ops, (d.run ops).Clean
    ∧ (d.run ops).reading = (d.accepted ops).foldl updated d.reading
  /-- Names that an operation is not given are read as before. -/
  others : ∀ op s, s ∉ op.names → (d.apply op).disk.reading s = d.reading s
  deleted : ∀ name, (d.delete name).error? = none →
    (d.delete name).disk.reading name = .missing name
  renamed : ∀ old new, (d.rename old new).error? = none →
    (d.rename old new).disk.reading new = (d.reading old).renamed new
      ∧ (old ≠ new → (d.rename old new).disk.reading old = .missing old)
  protection : ∀ name on, (d.protect name on).error? = none →
    (d.protect name on).disk.reading = d.reading
      ∧ ((d.protect name on).disk.delete name).error?
        = (if on then some (.fileProtected name) else none)
      ∧ ∀ op, op ≠ .delete name →
        ((d.protect name on).disk.apply op).error? = (d.apply op).error?
          ∧ ((d.protect name on).disk.apply op).disk.reading = (d.apply op).disk.reading
  /-- Adding a file, with a name and contents that can be stored, conflicts with a file of that
  name only. -/
  conflict : ∀ fs, d.entries = .ok fs → ∀ name, packName name ≠ none →
    (∀ data f c, contentsOf f data = .ok c →
      ((d.add name data f).error? = some (.nameConflict name) ↔ ∃ e ∈ fs, e.file.fileName = name))
    ∧ (∀ records f c, f.encode records = .ok c → ((d.addRecords name records f).error?
      = some (.nameConflict name) ↔ ∃ e ∈ fs, e.file.fileName = name))
    ∧ ∀ raw f count, (d.addSpecial name raw f count).error? = some (.nameConflict name)
      ↔ ∃ e ∈ fs, e.file.fileName = name
  undeleted : ∀ fs, d.entries = .ok fs → ∀ name,
    ((d.delete name).error? = some (.fileNotFound name) ↔ ∀ e ∈ fs, e.file.fileName ≠ name)
    ∧ ((d.delete name).error? = some (.fileProtected name)
      ↔ ∃ e ∈ fs, e.file.fileName = name ∧ e.file.isProtected = true)

theorem adding_conflict_iff (hd : d.Consistent) {name : String} (hname : packName name ≠ none)
    (f : FileFormat) (c : Contents) : (d.adding name f (.ok c)).error? = some (.nameConflict name)
      ↔ ∃ e ∈ d.files, e.file.fileName = name := by
  rw [error?_adding hd]
  change (if packName name = none then _ else if name ∈ d.names then _ else _) = _ ↔ _
  rw [if_neg hname, ← mem_names]
  by_cases hmem : name ∈ d.names
  · rw [if_pos hmem]; exact ⟨fun _ => hmem, fun _ => rfl⟩
  · rw [if_neg hmem, roomError?]
    refine ⟨fun h => ?_, fun h => absurd h hmem⟩
    split at h
    · cases h
    · split at h
      · cases h
      · split at h <;> cases h

theorem Clean.reading_apply_congr (hd : d.Clean) (hd' : d'.Clean)
    (hreading : d'.reading = d.reading) {op : Operation}
    (herror : (d'.apply op).error? = (d.apply op).error?) :
    (d'.apply op).disk.reading = (d.apply op).disk.reading := by
  by_cases h : (d.apply op).error? = none
  · rw [(hd.apply_of_accepted h).2, (hd'.apply_of_accepted (herror.trans h)).2, hreading]
  · rw [hd.disk_apply_of_refused h, hd'.disk_apply_of_refused (herror ▸ h), hreading]

theorem Clean.undeleted (hd : d.Clean) (name : String) :
    ((d.delete name).error? = some (.fileNotFound name) ↔ ∀ e ∈ d.files, e.file.fileName ≠ name)
    ∧ ((d.delete name).error? = some (.fileProtected name)
      ↔ ∃ e ∈ d.files, e.file.fileName = name ∧ e.file.isProtected = true) := by
  by_cases hmem : name ∈ d.names
  · obtain ⟨e, he, rfl⟩ := mem_names.1 hmem
    rw [hd.error?_delete he]
    refine ⟨⟨fun h => ?_, fun h => absurd rfl (h e he)⟩, ⟨fun h => ?_, ?_⟩⟩
    · split at h <;> cases h
    · split at h
      · rename_i hprotected
        exact ⟨e, he, rfl, hprotected⟩
      · cases h
    · rintro ⟨f, hf, hname, hprotected⟩
      rw [← hd.eq_of_fileName_eq hf he hname, if_pos hprotected]
  · rw [error?_delete_of_not_mem hd.consistent hmem]
    refine ⟨⟨fun _ e he hname => hmem (mem_names.2 ⟨e, he, hname⟩), fun _ => rfl⟩,
      ⟨fun h => (nomatch h), ?_⟩⟩
    rintro ⟨e, he, hname, -⟩
    exact absurd (mem_names.2 ⟨e, he, hname⟩) hmem

/-- Every disk that operations make of a blank one is clean, and on a clean disk the operations act
by names. -/
theorem acts_by_name :
    (∀ clock name sectors sides density d ops, init clock name sectors sides density = .ok d →
      (d.run ops).Clean)
    ∧ ∀ d : Disk, d.Clean → d.ActsByName := by
  refine ⟨fun _ _ _ _ _ _ ops h => ((clean_init h).run ops).1, fun d hd => ?_⟩
  constructor
  case run => exact hd.run
  case others => exact fun op s hs => hd.reading_apply_of_not_mem hs
  case deleted =>
    intro name h
    rw [(hd.delete h).2, Function.update_self]
  case renamed =>
    intro old new h
    rw [(hd.rename h).2]
    refine ⟨Function.update_self .., fun hne => ?_⟩
    rw [Function.update_of_ne hne, Function.update_self]
  case protection =>
    intro name on h
    obtain ⟨hclean, hreading⟩ := hd.protect h
    refine ⟨hreading, hd.error?_delete_protect h, fun op hop => ?_⟩
    have herror := hd.error?_apply_protect h hop
    exact ⟨herror, hd.reading_apply_congr hclean hreading herror⟩
  case conflict =>
    intro fs hfs name hname
    obtain ⟨-, rfl⟩ := entries_eq_ok.1 hfs
    refine ⟨fun data f c hc => ?_, fun records f c hc => ?_, fun raw f count => ?_⟩
    · rw [add_eq, hc]; exact adding_conflict_iff hd.consistent hname f c
    · rw [addRecords_eq, contentsOfRecords, hc]
      exact adding_conflict_iff hd.consistent hname f _
    · rw [addSpecial_eq]; exact adding_conflict_iff hd.consistent hname f _
  case undeleted =>
    intro fs hfs name
    obtain ⟨-, rfl⟩ := entries_eq_ok.1 hfs
    exact hd.undeleted name

theorem acts_by_name_blank : ∃ d, init .usual "WORK" 40 1 1 = .ok d
    ∧ ((d.run [.add "A" [0x61] .program]).rename "A" "B").disk.reading "B"
      = ((d.run [.add "A" [0x61] .program]).reading "A").renamed "B" := by
  obtain ⟨d, hd, hrenamed⟩ : ∃ d, init .usual "WORK" 40 1 1 = .ok d
      ∧ ((d.run [.add "A" [0x61] .program]).rename "A" "B").error?.isNone = true :=
    Result.exists_ok_of_any (by decide +kernel)
  have hclean := acts_by_name.1 _ _ _ _ _ _ [.add "A" [0x61] .program] hd
  exact ⟨d, hd, ((acts_by_name.2 _ hclean).renamed _ _ (Option.isNone_iff_eq_none.1 hrenamed)).1⟩

end Disk

end TiBench.Volume
