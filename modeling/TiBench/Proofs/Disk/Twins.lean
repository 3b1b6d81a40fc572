import TiBench.Proofs.Disk.Timed

/-!
# Disks that differ in dates

Two disks that are the same up to the timestamps in descriptor records: an operation that is done
to both is refused on both or on neither, and leaves two such disks.
-/

namespace TiBench.Volume.Disk

/-- The file without its timestamps. -/
def Entry.undated (e : Entry) : Entry := ⟨e.sector, e.file.undated⟩

/-- The disks are the same up to timestamps of descriptor records. They have had such records in
the listed sectors, and differ in no others. -/
structure Twins (a b : Disk) (dated : List Nat) : Prop where
  info_eq : b.info = a.info
  count_eq : b.image.count = a.image.count
  undated_eq : ∀ n, (Descriptor.ofSector (b.peek n)).undated
    = (Descriptor.ofSector (a.peek n)).undated
  peek_eq : ∀ n, n ∉ dated → b.peek n = a.peek n
  le_of_mem : ∀ n ∈ dated, firstFileSector ≤ n

variable {a b d : Disk} {dated : List Nat}

theorem peek_putSector (d : Disk) (n m : Nat) (s : Sector) :
    (d.putSector n s).peek m = if n = m ∧ n < d.image.count then s else d.peek m := by
  split
  · rename_i h
    rw [← h.1, peek_putSector_self h.2]
  · rename_i h
    by_cases hnm : n = m
    · have hcount : ¬n < d.image.sectors.size := fun hlt => h ⟨hnm, hlt⟩
      change (d.image.sectors.setIfInBounds n s).getD m (Block.zero sectorSize) = d.peek m
      rw [Array.setIfInBounds, dif_neg hcount]; rfl
    · exact peek_putSector_of_ne d hnm s

namespace Twins

theorem mono (h : Twins a b dated) {dated' : List Nat} (hsub : dated ⊆ dated')
    (hle : ∀ n ∈ dated', firstFileSector ≤ n) : Twins a b dated' :=
  ⟨h.info_eq, h.count_eq, h.undated_eq, fun n hn => h.peek_eq n fun hmem => hn (hsub hmem), hle⟩

theorem setClock (h : Twins a b dated) (t t' : Timestamp) :
    Twins (a.setClock t) (b.setClock t') dated :=
  ⟨h.info_eq, h.count_eq, h.undated_eq, h.peek_eq, h.le_of_mem⟩

/-! ## What twins have in common -/

theorem total_eq (h : Twins a b dated) : b.total = a.total := by rw [total, total, h.info_eq]

theorem bitmap_eq (h : Twins a b dated) : b.bitmap = a.bitmap := by rw [bitmap, bitmap, h.info_eq]

theorem peek_eq_of_lt (h : Twins a b dated) {n : Nat} (hn : n < firstFileSector) :
    b.peek n = a.peek n :=
  h.peek_eq n fun hmem => absurd (h.le_of_mem n hmem) (by omega)

theorem pointers_eq (h : Twins a b dated) : b.pointers = a.pointers := by
  rw [pointers, pointers, h.peek_eq_of_lt (by decide)]

theorem place?_eq (h : Twins a b dated) (n : Nat) : b.place? n = a.place? n := by
  rw [place?, place?, h.total_eq, h.bitmap_eq]

theorem files_eq (h : Twins a b dated) :
    b.files.map Entry.undated = a.files.map Entry.undated := by
  rw [files, files, List.map_map, List.map_map, h.pointers_eq]
  refine List.map_congr_left fun p _ => ?_
  exact congrArg (Entry.mk p) (h.undated_eq p)

theorem names_eq (h : Twins a b dated) : b.names = a.names := by
  have hnames := congrArg (List.map fun e : Entry => e.file.fileName) h.files_eq
  rwa [List.map_map, List.map_map] at hnames

theorem find_eq_ok (h : Twins a b dated) {name : String} {e : Entry} (he : a.find name = .ok e) :
    ∃ file', b.find name = .ok ⟨e.sector, file'⟩ ∧ file'.undated = e.file.undated := by
  obtain ⟨hentries, hfind⟩ := entries_of_find he
  have hentries' : b.entries = .ok b.files := by
    refine entries_eq_ok.2 ⟨fun p hp => ?_, rfl⟩
    rw [h.total_eq]
    exact (entries_eq_ok.1 hentries).1 p (h.pointers_eq ▸ hp)
  have hundated := congrArg (List.find? (·.file.fileName == name)) h.files_eq
  rw [List.find?_map, List.find?_map] at hundated
  change (b.files.find? (·.file.fileName == name)).map Entry.undated
    = (a.files.find? (·.file.fileName == name)).map Entry.undated at hundated
  rw [hfind, Option.map_some, Option.map_eq_some_iff] at hundated
  obtain ⟨e', he', hsame⟩ := hundated
  obtain ⟨hsector, hfile⟩ := Entry.mk.inj hsame
  exact ⟨e'.file, by rw [find_eq hentries', he', ← hsector], hfile⟩

/-! ## Writes to both -/

theorem putSector (h : Twins a b dated) {n : Nat} {s s' : Sector}
    (hs : (Descriptor.ofSector s').undated = (Descriptor.ofSector s).undated)
    (hn : n ∈ dated ∨ s' = s) : Twins (a.putSector n s) (b.putSector n s') dated := by
  refine ⟨h.info_eq, ?_, fun m => ?_, fun m hm => ?_, h.le_of_mem⟩
  · rw [count_putSector, count_putSector, h.count_eq]
  · rw [peek_putSector, peek_putSector, h.count_eq]
    split
    · exact hs
    · exact h.undated_eq m
  · rw [peek_putSector, peek_putSector, h.count_eq]
    split
    · rename_i hnm
      exact hn.resolve_left (hnm.1 ▸ hm)
    · exact h.peek_eq m hm

theorem putSectors (h : Twins a b dated) (ws : List (Nat × Sector)) :
    Twins (a.putSectors ws) (b.putSectors ws) dated := by
  induction ws generalizing a b with
  | nil => exact h
  | cons w ws ih => exact ih (h.putSector rfl (Or.inr rfl))

theorem putBitmap (h : Twins a b dated) (m : Bitmap) :
    Twins (a.putBitmap m) (b.putBitmap m) dated := by
  have hinfo : ({ b.info with bitmap := m.toBytes } : Info)
      = { a.info with bitmap := m.toBytes } := by rw [h.info_eq]
  have hsector := congrArg Info.toSector hinfo
  have hput := h.putSector (n := infoSector)
    (congrArg (fun s => (Descriptor.ofSector s).undated) hsector) (Or.inr hsector)
  exact ⟨hinfo, hput.count_eq, hput.undated_eq, hput.peek_eq, h.le_of_mem⟩

theorem putIndex (h : Twins a b dated) {fs fs' : List Entry}
    (hfs : fs'.map Entry.undated = fs.map Entry.undated) :
    Twins (a.putIndex fs) (b.putIndex fs') dated := by
  have hkeys := congrArg (List.map fun e : Entry => (e.file.fileName, e.sector)) hfs
  rw [List.map_map, List.map_map] at hkeys
  change fs'.map (fun e => (e.file.fileName, e.sector))
    = fs.map (fun e => (e.file.fileName, e.sector)) at hkeys
  rw [Disk.putIndex, Disk.putIndex, hkeys]
  exact h.putSector rfl (Or.inr rfl)

theorem putDescriptor (h : Twins a b dated) {n : Nat} (hn : firstFileSector ≤ n)
    {file file' : Descriptor} (hfile : file'.undated = file.undated) :
    Twins (a.putDescriptor n file) (b.putDescriptor n file') (dated ++ [n]) := by
  have hle : ∀ m ∈ dated ++ [n], firstFileSector ≤ m := by
    intro m hm
    rcases List.mem_append.1 hm with hm | hm
    · exact h.le_of_mem m hm
    · rw [List.mem_singleton.1 hm]; exact hn
  refine (h.mono (List.subset_append_left _ _) hle).putSector ?_ (Or.inl ?_)
  · rw [Descriptor.ofSector_toSector, Descriptor.ofSector_toSector, hfile]
  · exact List.mem_append_right _ (List.mem_singleton_self n)

theorem withFile (h : Twins a b dated) {p : Placement} (hp : firstFileSector ≤ p.descriptor)
    (sectors : List Sector) {file file' : Descriptor} (hfile : file'.undated = file.undated) :
    Twins (a.withFile p sectors file a.files) (b.withFile p sectors file' b.files)
      (dated ++ [p.descriptor]) := by
  refine (((h.putSectors _).putDescriptor hp hfile).putIndex ?_).putBitmap _
  rw [List.map_append, List.map_append, h.files_eq]
  exact congrArg (a.files.map Entry.undated ++ [Entry.mk p.descriptor ·]) hfile

/-! ## Operations on both -/

theorem error?_apply (h : Twins a b dated) (ha : a.Clean) (hb : b.Clean) (op : Operation) :
    (b.apply op).error? = (a.apply op).error? := by
  refine ha.error?_apply_congr hb (h.names_eq ▸ .refl _) h.total_eq h.bitmap_eq fun name _ => ?_
  by_cases hmem : name ∈ a.names
  · obtain ⟨e, he, rfl⟩ := mem_names.1 hmem
    obtain ⟨file', he', hsame⟩ := h.find_eq_ok (ha.find_of_mem he)
    obtain ⟨hmem', hname⟩ := mem_files_of_find he'
    have hprotected : file'.isProtected = e.file.isProtected := by
      rw [← file'.isProtected_undated, hsame, Descriptor.isProtected_undated]
    rw [ha.error?_delete he, ← hname, hb.error?_delete hmem', hprotected, hname]
  · rw [error?_delete_of_not_mem ha.consistent hmem,
      error?_delete_of_not_mem hb.consistent (h.names_eq ▸ hmem)]

end Twins

/-- The sectors to which an operation writes descriptor records, if it is not refused: the record of
a new file in the first free sector, the one of a file that is there in its place. -/
def recordSectors (d : Disk) : Operation → List Nat
  | .add .. | .addRecords .. | .addSpecial .. =>
    (d.bitmap.firstFree? firstFileSector d.total).toList
  | .rename name _ | .protect name _ => (d.find name).toOption.toList.map Entry.sector
  | .delete _ | .setClock _ => []

/-- The sectors to which an operation writes descriptor records. -/
def recordsWritten (d : Disk) (op : Operation) : List Nat :=
  if (d.apply op).error? = none then d.recordSectors op else []

theorem undated_newDescriptor (a b : Disk) (field : Block nameSize) (f : FileFormat) (c : Contents)
    (data : List Nat) : (b.newDescriptor field f c data).undated
      = (a.newDescriptor field f c data).undated := by
  simp only [newDescriptor, Descriptor.undated]

namespace Twins

theorem adding (h : Twins a b dated) {name : String} {f : FileFormat}
    {c : Except VolumeError Contents} (hok : (a.adding name f c).error? = none)
    (hok' : (b.adding name f c).error? = none) :
    Twins (a.adding name f c).disk (b.adding name f c).disk
      (dated ++ (a.bitmap.firstFree? firstFileSector a.total).toList) := by
  obtain ⟨contents, hc, hadd⟩ := Result.bind_eq_ok.1 (Change.eq_ok_of_ofExcept hok)
  obtain ⟨contents', hc', hadd'⟩ := Result.bind_eq_ok.1 (Change.eq_ok_of_ofExcept hok')
  obtain rfl : contents = contents' := Except.ok.inj (hc.symm.trans hc')
  obtain ⟨field, fs, p, hname, hfs, -, -, hp, -, hdisk⟩ := addFile_eq_ok hadd
  obtain ⟨field', fs', p', hname', hfs', -, -, hp', -, hdisk'⟩ := addFile_eq_ok hadd'
  obtain rfl : field = field' := Option.some.inj (hname.symm.trans hname')
  obtain rfl : p = p' := Option.some.inj (hp.symm.trans ((h.place?_eq _).symm.trans hp'))
  obtain ⟨-, rfl⟩ := entries_eq_ok.1 hfs
  obtain ⟨-, rfl⟩ := entries_eq_ok.1 hfs'
  change (a.adding name f c).disk = _ at hdisk
  change (b.adding name f c).disk = _ at hdisk'
  rw [hdisk, hdisk', descriptor_of_place? hp]
  exact h.withFile ((fits_of_place? hp).bounds List.mem_cons_self).1 _
    (undated_newDescriptor a b _ _ _ _)

theorem delete (h : Twins a b dated) (ha : a.Consistent) (hb : b.Consistent) {name : String}
    (hok : (a.delete name).error? = none) (hok' : (b.delete name).error? = none) :
    Twins (a.delete name).disk (b.delete name).disk dated := by
  obtain ⟨e, he, hfree, -⟩ := delete_removed ha hok
  obtain ⟨e', he', hfree', -⟩ := delete_removed hb hok'
  obtain ⟨file', hfind, hsame⟩ := h.find_eq_ok he
  obtain rfl := Except.ok.inj (he'.symm.trans hfind)
  have hdata : file'.sectors = e.file.sectors := by
    rw [← file'.sectors_undated, hsame, Descriptor.sectors_undated]
  rw [delete_eq he, delete_eq he', hfree, hfree', hdata, h.bitmap_eq]
  have hfiles := congrArg (List.filter (·.sector != e.sector)) h.files_eq
  rw [List.filter_map, List.filter_map] at hfiles
  exact (h.putIndex hfiles).putBitmap _

theorem rename (h : Twins a b dated) (ha : a.Consistent) (hb : b.Consistent) {old new : String}
    (hok : (a.rename old new).error? = none) (hok' : (b.rename old new).error? = none) :
    Twins (a.rename old new).disk (b.rename old new).disk
      (dated ++ (a.find old).toOption.toList.map Entry.sector) := by
  obtain ⟨field, e, hname, he, hdisk⟩ :=
    disk_rename_of_accepted ha.indexSector_not_mem_pointers hok
  obtain ⟨field', e', hname', he', hdisk'⟩ :=
    disk_rename_of_accepted hb.indexSector_not_mem_pointers hok'
  obtain rfl := Option.some.inj (hname.symm.trans hname')
  obtain ⟨file', hfind, hsame⟩ := h.find_eq_ok he
  obtain rfl := Except.ok.inj (he'.symm.trans hfind)
  have hfile : Descriptor.undated { file' with name := field }
      = Descriptor.undated { e.file with name := field } :=
    congrArg (fun file : Descriptor => { file with name := field }) hsame
  have hput := h.putDescriptor (ha.bounds_pointer (entryAt_of_find he).1).1 hfile
  rw [hdisk, hdisk', he]
  exact hput.putIndex hput.files_eq

theorem protect (h : Twins a b dated) (ha : a.Consistent) {name : String} (on : Bool)
    (hok : (a.protect name on).error? = none) :
    Twins (a.protect name on).disk (b.protect name on).disk
      (dated ++ (a.find name).toOption.toList.map Entry.sector) := by
  obtain ⟨e, he, -⟩ := protect_rewritten ha hok
  obtain ⟨file', he', hsame⟩ := h.find_eq_ok he
  have hfile : (file'.protect on).undated = (e.file.protect on).undated :=
    congrArg (fun file : Descriptor => file.protect on) hsame
  rw [protect_eq he, protect_eq he', he]
  exact h.putDescriptor (ha.bounds_pointer (entryAt_of_find he).1).1 hfile

/-- An operation on both leaves them the same up to timestamps, if it is not refused. -/
theorem apply_of_accepted (h : Twins a b dated) (ha : a.Clean) (hb : b.Clean) {op : Operation}
    (hok : (a.apply op).error? = none) :
    Twins (a.apply op).disk (b.apply op).disk (dated ++ a.recordSectors op) := by
  have hok' := (h.error?_apply ha hb op).trans hok
  cases op with
  | add name data f => exact h.adding hok hok'
  | addRecords name records f =>
      rw [Disk.apply, addRecords_eq] at hok hok' ⊢
      rw [Disk.apply, addRecords_eq]
      exact h.adding hok hok'
  | addSpecial name raw f count => exact h.adding (c := .ok _) hok hok'
  | delete name =>
      rw [recordSectors, List.append_nil]
      exact h.delete ha.consistent hb.consistent hok hok'
  | rename old new => exact h.rename ha.consistent hb.consistent hok hok'
  | protect name on => exact h.protect ha.consistent on hok
  | setClock t => rw [recordSectors, List.append_nil]; exact h.setClock t t

theorem apply (h : Twins a b dated) (ha : a.Clean) (hb : b.Clean) (op : Operation) :
    Twins (a.apply op).disk (b.apply op).disk (dated ++ a.recordsWritten op) := by
  rw [recordsWritten]
  by_cases hok : (a.apply op).error? = none
  · rw [if_pos hok]; exact h.apply_of_accepted ha hb hok
  · have hok' : (b.apply op).error? ≠ none := h.error?_apply ha hb op ▸ hok
    rw [if_neg hok, List.append_nil, ha.disk_apply_of_refused hok, hb.disk_apply_of_refused hok']
    exact h

end Twins

/-! ## Runs of both -/

/-- The sectors to which the operations of a run write descriptor records. -/
def recordsAlong (d : Disk) : List Timed → List Nat
  | [] => []
  | s :: steps =>
    (d.setClock s.time).recordsWritten s.operation ++ (d.applyAt s).disk.recordsAlong steps

theorem Twins.applyAt (h : Twins a b dated) (ha : a.Clean) (hb : b.Clean)
    (hreading : b.reading = a.reading) {s s' : Timed} (hop : s'.operation = s.operation) :
    (b.applyAt s').error? = (a.applyAt s).error?
      ∧ Twins (a.applyAt s).disk (b.applyAt s').disk
        (dated ++ (a.setClock s.time).recordsWritten s.operation)
      ∧ (b.applyAt s').disk.reading = (a.applyAt s).disk.reading := by
  obtain ⟨t, op⟩ := s
  obtain ⟨t', op'⟩ := s'
  change op' = op at hop
  subst op'
  have hclock := h.setClock t t'
  have herror := hclock.error?_apply (ha.setClock t) (hb.setClock t') op
  exact ⟨herror, hclock.apply (ha.setClock t) (hb.setClock t') op,
    (ha.setClock t).reading_apply_congr (hb.setClock t') hreading herror⟩

/-- The same operations, each at any time, are refused in both runs for the same reasons or in
neither, and files read the same after both. -/
theorem Twins.runAt (h : Twins a b dated) (ha : a.Clean) (hb : b.Clean)
    (hreading : b.reading = a.reading) {steps steps' : List Timed}
    (hsteps : steps'.map Timed.operation = steps.map Timed.operation) :
    b.errors steps' = a.errors steps
      ∧ Twins (a.runAt steps) (b.runAt steps') (dated ++ a.recordsAlong steps)
      ∧ (b.runAt steps').reading = (a.runAt steps).reading := by
  induction steps generalizing a b dated steps' with
  | nil =>
      obtain rfl := List.map_eq_nil_iff.1 hsteps
      refine ⟨rfl, ?_, hreading⟩
      rw [recordsAlong, List.append_nil]; exact h
  | cons s steps ih =>
      obtain ⟨s', steps', rfl, hop, hsteps⟩ := List.map_eq_cons_iff.1 hsteps
      obtain ⟨herror, htwins, hreading⟩ := h.applyAt ha hb hreading hop
      obtain ⟨herrors, htwins, hreading⟩ :=
        ih htwins (ha.applyAt s) (hb.applyAt s') hreading hsteps
      refine ⟨?_, ?_, hreading⟩
      · rw [errors_cons, errors_cons, herror, herrors]
      · rw [recordsAlong, ← List.append_assoc]; exact htwins

/-- Blank disks made at two times are the same but for their clocks. -/
theorem twins_init {clock clock' : Timestamp} {name : String} {sectors : Nat}
    {sides density : UInt8} (ha : init clock name sectors sides density = .ok a)
    (hb : init clock' name sectors sides density = .ok b) :
    Twins a b [] ∧ b.reading = a.reading := by
  have hclock : b = a.setClock clock' := by
    unfold init at ha hb
    split at ha
    · cases ha
    · rename_i field hname
      rw [hname] at hb
      dsimp only at hb
      split at ha
      · rename_i hgeometry
        rw [dif_pos hgeometry] at hb
        rw [← Except.ok.inj ha, ← Except.ok.inj hb]; rfl
      · cases ha
  subst hclock
  exact ⟨⟨rfl, rfl, fun _ => rfl, fun _ _ => rfl, fun _ h => absurd h List.not_mem_nil⟩, rfl⟩

/-- The same operations on blank disks, each at any time. -/
theorem twins_runAt {clock clock' : Timestamp} {name : String} {sectors : Nat}
    {sides density : UInt8} (ha : init clock name sectors sides density = .ok a)
    (hb : init clock' name sectors sides density = .ok b) {steps steps' : List Timed}
    (hsteps : steps'.map Timed.operation = steps.map Timed.operation) :
    b.errors steps' = a.errors steps
      ∧ Twins (a.runAt steps) (b.runAt steps') (a.recordsAlong steps)
      ∧ (b.runAt steps').reading = (a.runAt steps).reading := by
  obtain ⟨htwins, hreading⟩ := twins_init ha hb
  exact htwins.runAt (clean_init ha) (clean_init hb) hreading hsteps

end TiBench.Volume.Disk
