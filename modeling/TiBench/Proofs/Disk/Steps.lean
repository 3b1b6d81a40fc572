import TiBench.Proofs.Disk.Operation

/-!
# Operations write by write

The operations as programs that read and write one sector at a time, any of which might fail half
way and leave what was written before. None does: a write that is reached is made, so that the
operations are what the programs come to, and one that is refused leaves the disk as it was.
-/

namespace TiBench.Volume.Disk

/-- A program that reads and writes the sectors of a disk, and keeps what was written when it
fails. -/
abbrev Steps := ExceptT VolumeError (StateM Disk)

namespace Steps

/-- What a program gives on a disk, and the disk after it. -/
def result {α : Type} (t : Steps α) (d : Disk) : Except VolumeError α × Disk := t.run.run d

/-- What a program leaves behind. -/
def perform (t : Steps Unit) (d : Disk) : Change :=
  match t.result d with
  | (.ok (), d') => ⟨d', none⟩
  | (.error e, d') => ⟨d', some e⟩

def readSector (n : Nat) : Steps Sector := do
  match (← get).image.read n with
  | .ok s => return s
  | .error e => throw (.image e)

theorem count_of_write {image image' : SectorImage} {n : Nat} {data : Bytes}
    (h : image.write n data = .ok image') : image'.count = image.count := by
  rw [SectorImage.write] at h
  split at h
  · split at h
    · rw [← Except.ok.inj h, SectorImage.count_put]
    · cases h
  · cases h

def writeSector (n : Nat) (data : Bytes) : Steps Unit := do
  let d ← get
  match h : d.image.write n data with
  | .ok image =>
    set { d with
      image := image
      total_le_count := by rw [count_of_write h]; exact d.total_le_count }
  | .error e => throw (.image e)

def writeSectors : List (Nat × Sector) → Steps Unit
  | [] => return
  | w :: ws => do
    writeSector w.1 w.2.bytes
    writeSectors ws

/-- Writes the index of some files, in the order of their names. -/
def writeIndex (files : List Entry) : Steps Unit :=
  writeSector indexSector (Index.build (files.map fun e => (e.file.fileName, e.sector))).bytes

/-- Takes another bitmap into the information block in memory. -/
def keepBitmap (m : Bitmap) : Steps Unit :=
  modify fun d => { d with info := { d.info with bitmap := m.toBytes } }

def writeInfo : Steps Unit := do writeSector infoSector (← get).info.toSector.bytes

/-- Reads the descriptor record that the index lists in a sector. -/
def readEntry (p : Nat) : Steps Entry := do
  if p < (← get).total then return ⟨p, Descriptor.ofSector (← readSector p)⟩
  else throw (.damaged (.pointer p))

/-- Reads the files in the order of the index. -/
def entries : Steps (List Entry) := do
  (Index.pointers (← readSector indexSector).bytes).mapM readEntry

/-- Reads the first file in the index with a name. -/
def find (name : String) : Steps Entry := do
  match (← entries).find? (·.file.fileName == name) with
  | some e => return e
  | none => throw (.fileNotFound name)

/-- What a program gives, its failure included. -/
def attempt {α : Type} (t : Steps α) : Steps (Except VolumeError α) := ExceptT.lift t.run

/-- Writes a new file: its data, its descriptor record, the index and the bitmap. -/
def writeFile (name : String) (f : FileFormat) (c : Contents) : Steps Unit := do
  let some field := packName name | throw (.badName name)
  let files ← entries
  if files.any (·.file.fileName == name) then throw (.nameConflict name)
  else if Index.maxFiles ≤ files.length then throw .directoryFull
  else
    let d ← get
    let some place := d.place? c.sectors.length | throw .diskFull
    if Cluster.maxCount < (Cluster.ofSectors place.data).length then throw .diskFull
    else
      let file := d.newDescriptor field f c place.data
      writeSectors (place.data.zip c.sectors)
      writeSector place.descriptor file.toSector.bytes
      writeIndex (files ++ [⟨place.descriptor, file⟩])
      keepBitmap place.bitmap
      writeInfo

/-- Writes the index without a file, then the bitmap. -/
def delete (name : String) : Steps Unit := do
  let e ← find name
  if e.file.isProtected then throw (.fileProtected name)
  else
    let map := (e.sector :: e.file.sectors).foldl (fun m s => m.mark s false) (← get).bitmap
    writeIndex ((← entries).filter (·.sector != e.sector))
    keepBitmap map
    writeInfo

/-- Writes the descriptor record with another name, then reads the index again and writes it. -/
def rename (old new : String) : Steps Unit := do
  let some field := packName new | throw (.badName new)
  let e ← find old
  if old ≠ new ∧ (← attempt (find new)).isOk then throw (.nameConflict new)
  else
    writeSector e.sector (Descriptor.toSector { e.file with name := field }).bytes
    writeIndex (← entries)

/-- Writes the descriptor record with another flag. -/
def protect (name : String) (on : Bool) : Steps Unit := do
  let e ← find name
  let flags :=
    if on then e.file.flags ||| Descriptor.protectedFlag
    else e.file.flags &&& ~~~Descriptor.protectedFlag
  writeSector e.sector (Descriptor.toSector { e.file with flags := flags }).bytes

/-- The program of an operation. -/
def ofOperation : Operation → Steps Unit
  | .add name data f => do writeFile name f (← liftExcept (contentsOf f data))
  | .addRecords name records f => do writeFile name f (← liftExcept (contentsOfRecords f records))
  | .addSpecial name raw f count => writeFile name f ⟨sectorsOf raw, eofOf raw, count, 0⟩
  | .delete name => delete name
  | .rename old new => rename old new
  | .protect name on => protect name on
  | .setClock t => modify (·.setClock t)

/-! ## Results -/

variable {α β : Type} {d d' : Disk}

theorem result_bind (t : Steps α) (f : α → Steps β) (d : Disk) : (t >>= f).result d
    = match t.result d with
      | (.ok a, d') => (f a).result d'
      | (.error e, d') => (.error e, d') := by
  change (ExceptT.bindCont f (t.result d).1 : StateM Disk (Except VolumeError β)) (t.result d).2 = _
  rcases t.result d with ⟨_ | _, d'⟩ <;> rfl

theorem bind_of_ok {t : Steps α} {a : α} (h : t.result d = (.ok a, d')) (f : α → Steps β) :
    (t >>= f).result d = (f a).result d' := by
  rw [result_bind, h]

theorem result_get (d : Disk) : (get : Steps Disk).result d = (.ok d, d) := rfl

theorem get_bind (f : Disk → Steps β) (d : Disk) : (get >>= f).result d = (f d).result d := rfl

/-! ## Sectors -/

theorem result_readSector {n : Nat} (h : n < d.image.count) :
    (readSector n).result d = (.ok (d.peek n), d) := by
  rw [readSector, get_bind, read_eq_peek h]; rfl

theorem result_writeSector {n : Nat} (h : n < d.image.count) (s : Sector) :
    (writeSector n s.bytes).result d = (.ok (), d.putSector n s) := by
  have hwrite : d.image.write n s.bytes = .ok (d.image.put n s) := by
    rw [SectorImage.write, if_pos h, dif_pos s.length_eq]
  rw [writeSector, get_bind]
  split
  · rename_i image he
    rw [hwrite] at he
    obtain rfl := Except.ok.inj he
    rfl
  · rename_i e he
    rw [hwrite] at he; cases he

theorem result_writeSectors {ws : List (Nat × Sector)} (h : ∀ w ∈ ws, w.1 < d.image.count) :
    (writeSectors ws).result d = (.ok (), d.putSectors ws) := by
  induction ws generalizing d with
  | nil => rfl
  | cons w ws ih =>
      rw [writeSectors, bind_of_ok (result_writeSector (h w List.mem_cons_self) w.2),
        putSectors_cons]
      refine ih fun v hv => ?_
      rw [count_putSector]
      exact h v (List.mem_cons_of_mem _ hv)

theorem result_writeIndex (files : List Entry) (d : Disk) :
    (writeIndex files).result d = (.ok (), d.putIndex files) :=
  result_writeSector (lt_count_of_lt_total d.indexSector_lt_total) _

theorem result_writeBitmap (m : Bitmap) (d : Disk) :
    (do keepBitmap m; writeInfo : Steps Unit).result d = (.ok (), d.putBitmap m) := by
  have hinfo : infoSector < d.image.count :=
    lt_count_of_lt_total (Nat.lt_trans (by decide) d.describes_files)
  exact result_writeSector (d := { d with info := { d.info with bitmap := m.toBytes } }) hinfo _

/-! ## Reading the index -/

theorem result_readEntry (p : Nat) (d : Disk) : (readEntry p).result d =
    (if h : p < d.total then .ok ⟨p, Descriptor.ofSector (d.sectorAt p h)⟩
      else .error (.damaged (.pointer p)), d) := by
  rw [readEntry, get_bind]
  by_cases h : p < d.total
  · rw [if_pos h, dif_pos h, bind_of_ok (result_readSector (lt_count_of_lt_total h)),
      sectorAt_eq_peek]
    rfl
  · rw [if_neg h, dif_neg h]; rfl

theorem result_mapM {t : α → Steps β} {f : α → Except VolumeError β}
    (h : ∀ a, (t a).result d = (f a, d)) (as : List α) :
    (as.mapM t).result d = (as.mapM f, d) := by
  induction as with
  | nil => rfl
  | cons a as ih =>
      rw [List.mapM_cons, List.mapM_cons, result_bind, h a]
      cases f a with
      | error e => rfl
      | ok b =>
          dsimp only
          rw [result_bind, ih]
          cases as.mapM f <;> rfl

theorem result_entries (d : Disk) : entries.result d = (d.entries, d) := by
  rw [entries, bind_of_ok (result_readSector (lt_count_of_lt_total d.indexSector_lt_total)),
    result_mapM (fun p => result_readEntry p d), Disk.entries, sectorAt_eq_peek]

theorem result_find (name : String) (d : Disk) : (find name).result d = (d.find name, d) := by
  rw [find, Disk.find, result_bind, result_entries]
  cases d.entries with
  | error e => rfl
  | ok fs =>
      rw [Result.ok_bind]
      dsimp only
      cases fs.find? (·.file.fileName == name) <;> rfl

/-! ## Operations -/

theorem perform_of_ok {t : Steps Unit} (h : t.result d = (.ok (), d')) :
    t.perform d = ⟨d', none⟩ := by
  rw [perform, h]

theorem perform_bind_of_ok {t : Steps α} {a : α} (h : t.result d = (.ok a, d'))
    (f : α → Steps Unit) : (t >>= f).perform d = (f a).perform d' := by
  rw [perform, bind_of_ok h]; rfl

theorem perform_bind (t : Steps α) (f : α → Steps Unit) (d : Disk) : (t >>= f).perform d
    = match t.result d with
      | (.ok a, d') => (f a).perform d'
      | (.error e, d') => .refused d' e := by
  rw [perform, result_bind]
  rcases t.result d with ⟨_ | _, d'⟩ <;> rfl

/-- All the writes for a new file are made. -/
theorem result_writePlaced {n : Nat} {p : Placement} (hp : p.Fits d n) (sectors : List Sector)
    (file : Descriptor) (fs : List Entry) :
    (do
      writeSectors (p.data.zip sectors)
      writeSector p.descriptor file.toSector.bytes
      writeIndex (fs ++ [⟨p.descriptor, file⟩])
      keepBitmap p.bitmap
      writeInfo : Steps Unit).result d = (.ok (), d.withFile p sectors file fs) := by
  have hplace : ∀ s ∈ p.descriptor :: p.data, s < d.image.count := fun s hs =>
    lt_count_of_lt_total (hp.free s hs).2.1
  rw [bind_of_ok (result_writeSectors fun w hw =>
      hplace w.1 (List.mem_cons_of_mem _ (List.of_mem_zip hw).1)),
    bind_of_ok (result_writeSector (by
      rw [count_putSectors]; exact hplace _ List.mem_cons_self) _),
    bind_of_ok (result_writeIndex _ _), result_writeBitmap]
  rfl

theorem perform_writeFile (name : String) (f : FileFormat) (c : Contents) (d : Disk) :
    (writeFile name f c).perform d = .ofExcept d (d.addFile name f c) := by
  rw [writeFile]
  cases hname : packName name with
  | none => rw [addFile_of_packName hname]; rfl
  | some field =>
      dsimp only
      rw [perform_bind, result_entries]
      cases hfs : d.entries with
      | error e => rw [addFile_of_entries hname hfs]; rfl
      | ok fs =>
          rw [addFile_eq hname hfs]
          dsimp only
          by_cases hconflict : fs.any (·.file.fileName == name) = true
          · rw [if_pos hconflict, if_pos hconflict]; rfl
          · rw [if_neg hconflict, if_neg hconflict]
            by_cases hroom : Index.maxFiles ≤ fs.length
            · rw [if_pos hroom, if_pos hroom]; rfl
            · rw [if_neg hroom, if_neg hroom, perform_bind_of_ok (result_get d)]
              cases hplace : d.place? c.sectors.length with
              | none => rfl
              | some p =>
                  dsimp only
                  by_cases hclusters : Cluster.maxCount < (Cluster.ofSectors p.data).length
                  · rw [if_pos hclusters, if_pos hclusters]; rfl
                  · rw [if_neg hclusters, if_neg hclusters]
                    exact perform_of_ok (result_writePlaced (fits_of_place? hplace) _ _ fs)

theorem perform_delete (name : String) (d : Disk) : (delete name).perform d = d.delete name := by
  rw [delete, perform_bind, result_find]
  cases he : d.find name with
  | error err => rw [Disk.delete, he]; rfl
  | ok e =>
      rw [delete_eq he]
      dsimp only
      by_cases hprotected : e.file.isProtected = true
      · rw [if_pos hprotected, if_pos hprotected]; rfl
      · rw [if_neg hprotected, if_neg hprotected, perform_bind_of_ok (result_get d),
          perform_bind, result_entries, (entries_of_find he).1]
        dsimp only
        rw [perform_bind_of_ok (result_writeIndex _ _)]
        exact perform_of_ok (result_writeBitmap _ _)

theorem lt_count_of_find {name : String} {e : Entry} (he : d.find name = .ok e) :
    e.sector < d.image.count :=
  lt_count_of_lt_total ((entries_eq_ok.1 (entries_of_find he).1).1 _ (entryAt_of_find he).1)

theorem result_attempt (t : Steps α) (d : Disk) :
    (attempt t).result d = (.ok (t.result d).1, (t.result d).2) := rfl

theorem perform_rename (old new : String) (d : Disk) :
    (rename old new).perform d = d.rename old new := by
  rw [rename]
  cases hname : packName new with
  | none => rw [Disk.rename, hname]; rfl
  | some field =>
      dsimp only
      rw [perform_bind, result_find]
      cases he : d.find old with
      | error err => rw [Disk.rename, hname, he]
      | ok e =>
          rw [rename_eq hname he]
          dsimp only
          rw [perform_bind_of_ok (result_attempt _ d), result_find]
          dsimp only
          by_cases hconflict : old ≠ new ∧ (d.find new).isOk = true
          · rw [if_pos hconflict, if_pos hconflict]; rfl
          · rw [if_neg hconflict, if_neg hconflict,
              perform_bind_of_ok (result_writeSector (lt_count_of_find he) _)]
            change (entries >>= writeIndex).perform (d.putDescriptor e.sector _) = _
            -- A failure to read the index again would leave the record with its new name.
            rw [perform_bind, result_entries]
            cases (d.putDescriptor e.sector { e.file with name := field }).entries with
            | error err => rfl
            | ok fs => exact perform_of_ok (result_writeIndex fs _)

theorem perform_protect (name : String) (on : Bool) (d : Disk) :
    (protect name on).perform d = d.protect name on := by
  rw [protect, perform_bind, result_find]
  cases he : d.find name with
  | error err => rw [Disk.protect, he]; rfl
  | ok e =>
      rw [protect_eq he]
      exact perform_of_ok (result_writeSector (lt_count_of_find he) _)

theorem perform_adding (name : String) (f : FileFormat) (c : Except VolumeError Contents)
    (d : Disk) :
    (do writeFile name f (← liftExcept c) : Steps Unit).perform d = d.adding name f c := by
  cases c with
  | error e => rfl
  | ok c => exact perform_writeFile name f c d

/-- An operation is what its program comes to. -/
theorem perform_ofOperation (op : Operation) (d : Disk) :
    (ofOperation op).perform d = d.apply op := by
  cases op with
  | add name data f => exact perform_adding name f _ d
  | addRecords name records f =>
      rw [apply, addRecords_eq]; exact perform_adding name f _ d
  | addSpecial name raw f count => exact perform_writeFile name f _ d
  | delete name => exact perform_delete name d
  | rename old new => exact perform_rename old new d
  | protect name on => exact perform_protect name on d
  | setClock t => rfl

/-- An operation is what its program comes to, and if the program fails, on whatever disk, it has
written nothing: the image and the information block in memory are as before. For renaming, the
index must not list itself as a file. -/
theorem perform_atomic (op : Operation) (d : Disk) :
    (ofOperation op).perform d = d.apply op
    ∧ ((∀ old new, op = .rename old new → indexSector ∉ d.pointers) →
      ((ofOperation op).perform d).error? ≠ none → ((ofOperation op).perform d).disk = d) := by
  refine ⟨perform_ofOperation op d, fun hindex h => ?_⟩
  rw [perform_ofOperation] at h ⊢
  exact disk_apply_of_refused hindex h

/-- Of two files neither can take the name of the other, and a file that is too large for what the
first one leaves cannot be added to a small disk. -/
theorem perform_atomic_rename :
    let record (name : String) : Sector :=
      (Descriptor.new (Block.fit 0x20 nameSize (Text.utf8 name)) .program).toSector
    let pair (d : Disk) : Disk :=
      d.putSectors [(2, record "A"), (3, record "B"), (indexSector, .fit 0 sectorSize [0, 2, 0, 3])]
    let full (d : Disk) : Disk := (d.add "A" [0x61] .program).disk
    let retitle := ofOperation (.rename "A" "B")
    let append := ofOperation (.add "B" [0x62] .program)
    ∃ d, init .usual "WORK" 5 1 1 = .ok d
      ∧ (retitle.perform (pair d)).error? = some (.nameConflict "B")
      ∧ (retitle.perform (pair d)).disk = pair d
      ∧ (full d).extract "A" = .ok [0x61]
      ∧ (append.perform (full d)).error? = some .diskFull
      ∧ (append.perform (full d)).disk = full d := by
  intro record pair full retitle append
  obtain ⟨d, hd, herrors⟩ : ∃ d, init .usual "WORK" 5 1 1 = .ok d
      ∧ decide ((retitle.perform (pair d)).error? = some (.nameConflict "B")
        ∧ indexSector ∉ (pair d).pointers
        ∧ (full d).extract "A" = .ok [0x61]
        ∧ (append.perform (full d)).error? = some .diskFull) = true :=
    Result.exists_ok_of_any (by decide +kernel)
  obtain ⟨hretitle, hindex, hextract, happend⟩ := of_decide_eq_true herrors
  refine ⟨d, hd, hretitle, ?_, hextract, happend, ?_⟩
  · exact (perform_atomic _ _).2 (fun _ _ _ => hindex) (hretitle ▸ Option.some_ne_none _)
  · exact (perform_atomic _ _).2 (fun _ _ h => nomatch h) (happend ▸ Option.some_ne_none _)

/-- A disk whose index lists itself as a file can be changed by renaming that file and yet refuse
to rename it. -/
theorem rename_of_index_listed : ∃ (d : Disk) (old new : String), indexSector ∈ d.pointers
    ∧ (d.rename old new).error? ≠ none ∧ (d.rename old new).disk ≠ d := by
  let listed (d : Disk) : Disk := d.putSector indexSector (Block.fit 0 sectorSize [0, 1])
  let old := "\x00\x01\x00\x00\x00\x00\x00\x00\x00\x00"
  obtain ⟨d, -, h⟩ : ∃ d, init .usual "WORK" 40 1 1 = .ok d
      ∧ decide (indexSector ∈ (listed d).pointers
        ∧ ((listed d).rename old "ABCDEFGHIJ").error? ≠ none
        ∧ ((listed d).rename old "ABCDEFGHIJ").disk.image ≠ (listed d).image) = true :=
    Result.exists_ok_of_any (by decide +kernel)
  obtain ⟨hlisted, herror, himage⟩ := of_decide_eq_true h
  exact ⟨listed d, old, "ABCDEFGHIJ", hlisted, herror, fun he => himage (congrArg Disk.image he)⟩

end Steps

end TiBench.Volume.Disk
