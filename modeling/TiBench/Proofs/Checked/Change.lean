import TiBench.Proofs.Checked.Layout
import TiBench.Proofs.Disk.Steps

/-!
# Operations access by access

The operations as programs on a disk of which nothing is known but its bytes, by accesses each of
which might be out of range. On the bytes of a disk none is: the programs do what those that read
and write whole sectors do.
-/

namespace TiBench.Volume

open Disk (Entry Contents Placement Steps)

-- A search would otherwise be run when the programs that use it are unfolded.
attribute [local irreducible] Bitmap.firstFree?

/-- A disk as a machine keeps it: its bytes, what its sector zero said when it was read, and its
clock. -/
structure RawDisk where
  data : Bytes
  info : Info
  clock : Timestamp

namespace Disk

/-- The disk without the facts that hold of it. -/
def raw (d : Disk) : RawDisk := ⟨d.toBytes, d.info, d.clock⟩

end Disk

namespace RawDisk

def total (d : RawDisk) : Nat := d.info.total.toNat

def bitmap (d : RawDisk) : Bitmap := .ofBytes d.info.bitmap.bytes

/-- A program on a disk, which gives a value or an error unless a fault ends it. -/
abbrev Program := ExceptT VolumeError (StateT RawDisk Checked)

namespace Program

variable {α β : Type}

/-- What a program gives on a disk, and the disk after it. -/
def result (t : Program α) (d : RawDisk) : Checked (Except VolumeError α × RawDisk) := t.run.run d

/-! ## Sectors -/

def readSector (n : Nat) : Program Sector := do
  match ← Checked.Image.read (← get).data n with
  | .ok s => return s
  | .error e => throw (.image e)

def writeSector (n : Nat) (sector : Bytes) : Program Unit := do
  let d ← get
  match ← Checked.Image.write d.data n sector with
  | .ok data => set { d with data := data }
  | .error e => throw (.image e)

def writeSectors : List (Nat × Sector) → Program Unit
  | [] => return
  | w :: ws => do
    writeSector w.1 w.2.bytes
    writeSectors ws

/-- Writes the index of some files, in the order of their names. -/
def writeIndex (files : List Entry) : Program Unit := do
  let sector ← Checked.Index.build (files.map fun e => (e.file.fileName, e.sector))
  writeSector indexSector sector.bytes

/-- Takes another bitmap into the information block in memory. -/
def keepBitmap (m : Bitmap) : Program Unit := do
  let bytes ← Checked.Bitmap.toBytes m
  modify fun d => { d with info := { d.info with bitmap := bytes } }

/-- Writes the information block, after a log line that shows the bitmap as far as the volume
goes. -/
def writeInfo : Program Unit := do
  let d ← get
  let _shown ← Checked.slice d.info.bitmap.bytes 0 (min bitmapSize ((d.total + 7) / 8))
  writeSector infoSector d.info.toSector.bytes

/-! ## The index -/

/-- Reads the descriptor record that the index lists in a sector. -/
def readEntry (p : Nat) : Program Entry := do
  if p < (← get).total then return ⟨p, Descriptor.ofSector (← readSector p)⟩
  else throw (.damaged (.pointer p))

/-- Reads the files in the order of the index. -/
def entries : Program (List Entry) := do
  let sector ← readSector indexSector
  (← Checked.Index.pointers sector.bytes).mapM readEntry

/-- Reads the first file in the index with a name. -/
def find (name : String) : Program Entry := do
  match (← entries).find? (·.file.fileName == name) with
  | some e => return e
  | none => throw (.fileNotFound name)

/-- What a program gives, its error included. -/
def attempt (t : Program α) : Program (Except VolumeError α) := ExceptT.lift t.run

/-! ## Places -/

/-- The data sectors of a file in order. -/
def sectors (file : Descriptor) : Checked (List Nat) := do
  return (Cluster.sectors (← Checked.Cluster.unpack file.clusters.bytes)).take
    file.dataSectors.toNat

/-- The next `n` data sectors, each marked as it is taken, and the bitmap after that. -/
def takeData (total : Nat) :
    (n : Nat) → Bitmap → (done : List Nat) → Checked (Option (List Nat × Bitmap))
  | 0, m, done => return some (done.reverse, m)
  | n + 1, m, done =>
    match Disk.nextData? m total with
    | none => return none
    | some s => do takeData total n (← Checked.Bitmap.mark m s true) (s :: done)

/-- The place for a file of `n` data sectors. -/
def place (d : RawDisk) (n : Nat) : Checked (Option Placement) :=
  match d.bitmap.firstFree? firstFileSector d.total with
  | none => return none
  | some s => do
    let taken ← takeData d.total n (← Checked.Bitmap.mark d.bitmap s true) []
    return taken.map fun t => ⟨s, t.1, t.2⟩

/-- The descriptor of a new file with these clusters. -/
def newDescriptor (d : RawDisk) (field : Block nameSize) (f : FileFormat) (c : Contents)
    (data : List Nat) (clusters : List Cluster) : Checked Descriptor := do
  let perSector ← Checked.perSector f
  let list ← Checked.Cluster.pack clusters
  let stamp := d.clock.pack
  let file := Descriptor.new field f
  return { file with
    flags := file.flags ||| c.flags
    perSector := UInt8.ofNat perSector
    dataSectors := UInt16.ofNat data.length
    eof := c.eof
    count := c.count
    created := stamp
    updated := stamp
    clusters := list }

/-- The contents of a payload. -/
def contentsOf (f : FileFormat) (data : Bytes) : ExceptT VolumeError Checked Contents :=
  match f with
  | .program => do
    let pieces ← Checked.chunks sectorSize data
    let eof ← Checked.mod data.length sectorSize
    return ⟨pieces.map (Block.fit 0 sectorSize), UInt8.ofNat eof, 0, 0⟩
  | .records r => do
    let records ← (Checked.split f data).adapt (.paddedLine ·.line)
    let encoded ← (Checked.encode f records).adapt .record
    match r.content, r.family with
    | .internal, .fixed => do
      let eof ← Checked.mod data.length r.length
      return ⟨encoded.sectors, UInt8.ofNat eof, encoded.count, 0⟩
    | .internal, .variable => return ⟨encoded.sectors, encoded.eof, encoded.count, 0⟩
    | .display, _ =>
      let unterminated := data.getLast?.any (· != Payload.lineFeed)
      return ⟨encoded.sectors, encoded.eof, encoded.count,
        if unterminated then Descriptor.unterminatedFlag else 0⟩

def contentsOfRecords (f : FileFormat) (records : List Bytes) :
    ExceptT VolumeError Checked Contents := do
  let encoded ← (Checked.encode f records).adapt .record
  return ⟨encoded.sectors, encoded.eof, encoded.count, 0⟩

/-- Bytes as the contents of a file with a count of the caller's choice. -/
def contentsOfRaw (raw : Bytes) (count : UInt16) : Checked Contents := do
  let pieces ← Checked.chunks sectorSize raw
  let eof ← Checked.mod raw.length sectorSize
  return ⟨pieces.map (Block.fit 0 sectorSize), UInt8.ofNat eof, count, 0⟩

/-! ## Operations -/

/-- Writes a new file: its data, its descriptor record, the index and the bitmap. -/
def writeFile (name : String) (f : FileFormat) (c : Contents) : Program Unit := do
  let some field ← Checked.packName name | throw (.badName name)
  let files ← entries
  if files.any (·.file.fileName == name) then throw (.nameConflict name)
  else if Index.maxFiles ≤ files.length then throw .directoryFull
  else
    let d ← get
    let some place ← place d c.sectors.length | throw .diskFull
    if 65536 ≤ c.sectors.length then throw .diskFull
    else
      let clusters ← Checked.Cluster.ofSectors place.data
      if Cluster.maxCount < clusters.length then throw .diskFull
      else
        let file ← newDescriptor d field f c place.data clusters
        writeSectors (place.data.zip c.sectors)
        writeSector place.descriptor file.toSector.bytes
        writeIndex (files ++ [⟨place.descriptor, file⟩])
        keepBitmap place.bitmap
        writeInfo

/-- Writes the index without a file, then the bitmap. -/
def delete (name : String) : Program Unit := do
  let e ← find name
  if e.file.isProtected then throw (.fileProtected name)
  else
    let map ← Checked.Bitmap.markAll (← get).bitmap (e.sector :: (← sectors e.file)) false
    writeIndex ((← entries).filter (·.sector != e.sector))
    keepBitmap map
    writeInfo

/-- Writes the descriptor record with another name, then reads the index again and writes it. -/
def rename (old new : String) : Program Unit := do
  let some field ← Checked.packName new | throw (.badName new)
  let e ← find old
  if old ≠ new ∧ (← attempt (find new)).isOk then throw (.nameConflict new)
  else
    writeSector e.sector (Descriptor.toSector { e.file with name := field }).bytes
    writeIndex (← entries)

/-- Writes the descriptor record with another flag. -/
def protect (name : String) (on : Bool) : Program Unit := do
  let e ← find name
  let flags :=
    if on then e.file.flags ||| Descriptor.protectedFlag
    else e.file.flags &&& ~~~Descriptor.protectedFlag
  writeSector e.sector (Descriptor.toSector { e.file with flags := flags }).bytes

/-- The program of an operation. -/
def ofOperation : Operation → Program Unit
  | .add name data f => do writeFile name f (← liftExcept (← (contentsOf f data).run))
  | .addRecords name records f => do
    writeFile name f (← liftExcept (← (contentsOfRecords f records).run))
  | .addSpecial name raw f count => do writeFile name f (← contentsOfRaw raw count)
  | .delete name => delete name
  | .rename old new => rename old new
  | .protect name on => protect name on
  | .setClock t => modify fun d => { d with clock := t }

/-! ## What a program gives

A program gives something on a disk if no fault ends it there. -/

/-- On the bytes of a disk, the program gives this result and the bytes of this disk. -/
def Gives (t : Program α) (d : Disk) (r : Except VolumeError α × Disk) : Prop :=
  t.result d.raw = .ok (r.1, r.2.raw)

variable {d : Disk}

theorem gives_pure (a : α) (d : Disk) : (pure a : Program α).Gives d (.ok a, d) := rfl

theorem gives_liftExcept (x : Except VolumeError α) (d : Disk) :
    (liftExcept x : Program α).Gives d ((liftExcept x : Steps α).result d) := by
  cases x <;> rfl

theorem gives_get_bind {f : RawDisk → Program β} {r : Except VolumeError β × Disk}
    (h : (f d.raw).Gives d r) : (get >>= f).Gives d r := h

theorem gives_lift_bind {c : Checked α} {a : α} (h : c = .ok a) {f : α → Program β}
    {r : Except VolumeError β × Disk} (hf : (f a).Gives d r) :
    ((liftM c : Program α) >>= f).Gives d r := by
  rw [h]; exact hf

theorem result_bind_of_ok {t : Program α} {d d' : RawDisk} {a : α}
    (h : t.result d = .ok (.ok a, d')) (f : α → Program β) :
    (t >>= f).result d = (f a).result d' := by
  change (t.result d >>= fun p => (ExceptT.bindCont f p.1 : StateT RawDisk Checked _) p.2) = _
  rw [h]; rfl

theorem result_bind_of_error {t : Program α} {d d' : RawDisk} {e : VolumeError}
    (h : t.result d = .ok (.error e, d')) (f : α → Program β) :
    (t >>= f).result d = .ok (.error e, d') := by
  change (t.result d >>= fun p => (ExceptT.bindCont f p.1 : StateT RawDisk Checked _) p.2) = _
  rw [h]; rfl

/-- A program goes on as the steps do that it follows. -/
theorem Gives.bind {t : Program α} {s : Steps α} {f : α → Program β} {g : α → Steps β}
    (h : t.Gives d (s.result d))
    (hf : ∀ a d', s.result d = (.ok a, d') → (f a).Gives d' ((g a).result d')) :
    (t >>= f).Gives d ((s >>= g).result d) := by
  rw [Steps.result_bind]
  rcases hs : s.result d with ⟨_ | a, d'⟩
  · rw [hs] at h; exact result_bind_of_error h f
  · rw [hs] at h; exact (result_bind_of_ok h f).trans (hf a d' hs)

/-- A program that has read goes on with what it read. -/
theorem Gives.read_bind {t : Program α} {x : Except VolumeError α} {f : α → Program β}
    {g : α → Except VolumeError β} (h : t.Gives d (x, d))
    (hf : ∀ a, x = .ok a → (f a).Gives d (g a, d)) : (t >>= f).Gives d (x >>= g, d) := by
  cases x with
  | error e => exact result_bind_of_error h f
  | ok a => exact (result_bind_of_ok h f).trans (hf a rfl)

theorem Gives.read_map {t : Program α} {x : Except VolumeError α} {f : α → Program β}
    {g : α → β} (h : t.Gives d (x, d))
    (hf : ∀ a, x = .ok a → (f a).Gives d (.ok (g a), d)) : (t >>= f).Gives d (x.map g, d) := by
  cases x with
  | error e => exact result_bind_of_error h f
  | ok a => exact (result_bind_of_ok h f).trans (hf a rfl)

theorem gives_mapM {t : α → Program β} {s : α → Steps β}
    (h : ∀ a d, (t a).Gives d ((s a).result d)) (as : List α) (d : Disk) :
    (as.mapM t).Gives d ((as.mapM s).result d) := by
  induction as generalizing d with
  | nil => rfl
  | cons a as ih =>
      rw [List.mapM_cons, List.mapM_cons]
      exact (h a d).bind fun b d' _ => (ih d').bind fun bs d' _ => rfl

/-! ### Sectors -/

theorem gives_readSector (n : Nat) (d : Disk) :
    (readSector n).Gives d ((Steps.readSector n).result d) := by
  refine gives_get_bind (gives_lift_bind (Checked.Image.read_eq d.image n) ?_)
  rw [Steps.readSector, Steps.get_bind]
  cases d.image.read n <;> rfl

theorem gives_writeSector (n : Nat) (sector : Bytes) (d : Disk) :
    (writeSector n sector).Gives d ((Steps.writeSector n sector).result d) := by
  refine gives_get_bind (gives_lift_bind (Checked.Image.write_eq d.image n sector) ?_)
  cases hwrite : d.image.write n sector with
  | error e =>
      have hsteps : (Steps.writeSector n sector).result d = (.error (.image e), d) := by
        rw [Steps.writeSector, Steps.get_bind]
        split
        · rename_i image h
          rw [hwrite] at h; cases h
        · rename_i e' h
          rw [hwrite] at h; cases h; rfl
      rw [hsteps]; rfl
  | ok image =>
      have hsteps : ((Steps.writeSector n sector).result d).1 = .ok ()
          ∧ ((Steps.writeSector n sector).result d).2.raw
            = { d.raw with data := image.toBytes } := by
        rw [Steps.writeSector, Steps.get_bind]
        split
        · rename_i image' h
          rw [hwrite] at h; cases h; exact ⟨rfl, rfl⟩
        · rename_i e h
          rw [hwrite] at h; cases h
      rw [Gives, hsteps.1, hsteps.2]; rfl

theorem gives_writeSectors (ws : List (Nat × Sector)) (d : Disk) :
    (writeSectors ws).Gives d ((Steps.writeSectors ws).result d) := by
  induction ws generalizing d with
  | nil => rfl
  | cons w ws ih => exact (gives_writeSector _ _ d).bind fun _ d' _ => ih d'

theorem gives_writeIndex (files : List Entry) (d : Disk) :
    (writeIndex files).Gives d ((Steps.writeIndex files).result d) :=
  gives_lift_bind (Checked.Index.build_eq _) (gives_writeSector _ _ d)

theorem gives_keepBitmap (m : Bitmap) (d : Disk) :
    (keepBitmap m).Gives d ((Steps.keepBitmap m).result d) :=
  gives_lift_bind (Checked.Bitmap.toBytes_eq m) rfl

theorem gives_writeInfo (d : Disk) : writeInfo.Gives d (Steps.writeInfo.result d) := by
  have hshown : min bitmapSize ((d.total + 7) / 8) ≤ d.info.bitmap.bytes.length := by
    rw [d.info.bitmap.length_eq]; exact Nat.min_le_left _ _
  exact gives_get_bind (gives_lift_bind (Checked.slice_zero hshown) (gives_writeSector _ _ d))

/-! ### The index -/

theorem gives_readEntry (p : Nat) (d : Disk) :
    (readEntry p).Gives d ((Steps.readEntry p).result d) := by
  refine gives_get_bind ?_
  rw [Steps.readEntry, Steps.get_bind]
  change Program.Gives (if p < d.total then _ else _) d _
  by_cases h : p < d.total
  · rw [if_pos h, if_pos h]
    exact (gives_readSector p d).bind fun s d' _ => rfl
  · rw [if_neg h, if_neg h]; rfl

theorem gives_entries (d : Disk) : entries.Gives d (Steps.entries.result d) :=
  (gives_readSector indexSector d).bind fun s d' _ =>
    gives_lift_bind (Checked.Index.pointers_eq s) (gives_mapM gives_readEntry _ d')

theorem gives_find (name : String) (d : Disk) : (find name).Gives d ((Steps.find name).result d) :=
  (gives_entries d).bind fun fs d' _ => by
    cases fs.find? (·.file.fileName == name) <;> rfl

theorem gives_attempt {t : Program α} {s : Steps α} (h : t.Gives d (s.result d)) :
    (attempt t).Gives d ((Steps.attempt s).result d) := by
  rw [Steps.result_attempt]
  change (t.result d.raw >>= fun p => Except.ok (Except.ok p.1, p.2)) = _
  rw [h]; rfl

/-! ### Places and contents -/

theorem sectors_eq (file : Descriptor) : sectors file = .ok file.sectors := by
  rw [sectors, Checked.Cluster.unpack_eq]; rfl

theorem takeData_succ (total n : Nat) (m : Bitmap) (done : List Nat) :
    takeData total (n + 1) m done = match Disk.nextData? m total with
      | none => .ok none
      | some s => Checked.Bitmap.mark m s true >>= fun m => takeData total n m (s :: done) := rfl

theorem takeData_eq (total n : Nat) (m : Bitmap) (done : List Nat) :
    takeData total n m done = .ok (Disk.takeData? total n m done) := by
  induction n generalizing m done with
  | zero => rfl
  | succ n ih =>
      rw [takeData_succ, Disk.takeData?_succ]
      cases Disk.nextData? m total with
      | none => rfl
      | some s =>
          dsimp only
          rw [Checked.Bitmap.mark_eq, Result.ok_bind, ih]

theorem place_eq (d : Disk) (n : Nat) : place d.raw n = .ok (d.place? n) := by
  rw [place, Disk.place?]
  change (match d.bitmap.firstFree? firstFileSector d.total with | none => _ | some s => _) = _
  cases d.bitmap.firstFree? firstFileSector d.total with
  | none => rfl
  | some s =>
      dsimp only
      change (Checked.Bitmap.mark d.bitmap s true >>= _) = _
      rw [Checked.Bitmap.mark_eq, Result.ok_bind, takeData_eq, Result.ok_bind]
      change Except.ok ((Disk.takeData? d.total n (d.bitmap.mark s true) []).map _) = _
      rw [Option.bind_eq_bind, Option.bind_some]
      cases h : Disk.takeData? d.total n (d.bitmap.mark s true) [] <;> rfl

theorem newDescriptor_eq (d : Disk) (field : Block nameSize) (f : FileFormat) (c : Contents)
    (data : List Nat) : newDescriptor d.raw field f c data (Cluster.ofSectors data)
      = .ok (d.newDescriptor field f c data) := by
  rw [newDescriptor, Checked.perSector_eq, Result.ok_bind, Checked.Cluster.pack_eq, Result.ok_bind]
  rfl

theorem contentsOf_eq (f : FileFormat) (data : Bytes) :
    (contentsOf f data).run = .ok (Disk.contentsOf f data) := by
  cases f with
  | program =>
      rw [contentsOf, Checked.run_lift_bind (Checked.chunks_eq (by decide) data),
        Checked.run_lift_bind (Checked.mod_eq (by decide) data.length)]
      rfl
  | records r =>
      refine Checked.run_bind_eq (Checked.run_adapt (Checked.split_eq _ data) _) fun records _ => ?_
      refine Checked.run_bind_eq (Checked.run_adapt (Checked.encode_eq _ records) _)
        fun encoded _ => ?_
      rcases r.content with _ | _
      · rfl
      · rcases r.family with _ | _
        · exact Checked.run_lift_bind (Checked.mod_eq r.length_pos data.length) _
        · rfl

theorem contentsOfRecords_eq (f : FileFormat) (records : List Bytes) :
    (contentsOfRecords f records).run = .ok (Disk.contentsOfRecords f records) :=
  Checked.run_bind_eq (Checked.run_adapt (Checked.encode_eq f records) _) fun _ _ => rfl

theorem contentsOfRaw_eq (raw : Bytes) (count : UInt16) :
    contentsOfRaw raw count = .ok ⟨Disk.sectorsOf raw, Disk.eofOf raw, count, 0⟩ := by
  rw [contentsOfRaw, Checked.chunks_eq (by decide), Result.ok_bind, Checked.mod_eq (by decide),
    Result.ok_bind]
  rfl

/-! ### Operations -/

theorem gives_writeFile (name : String) (f : FileFormat) (c : Contents) (d : Disk) :
    (writeFile name f c).Gives d ((Steps.writeFile name f c).result d) := by
  refine gives_lift_bind (Checked.packName_eq name) ?_
  rw [Steps.writeFile]
  cases packName name with
  | none => rfl
  | some field =>
      refine (gives_entries d).bind fun files d' _ => ?_
      by_cases hconflict : files.any (·.file.fileName == name) = true
      · rw [if_pos hconflict, if_pos hconflict]; rfl
      · rw [if_neg hconflict, if_neg hconflict]
        by_cases hroom : Index.maxFiles ≤ files.length
        · rw [if_pos hroom, if_pos hroom]; rfl
        · rw [if_neg hroom, if_neg hroom, Steps.get_bind]
          refine gives_get_bind (gives_lift_bind (place_eq d' _) ?_)
          cases hplace : d'.place? c.sectors.length with
          | none => rfl
          | some p =>
              have hcount : c.sectors.length < 65536 := by
                rw [← (Disk.fits_of_place? hplace).length_data]
                exact Nat.lt_of_le_of_lt (Disk.fits_of_place? hplace).length_data_le (by decide)
              dsimp only
              rw [if_neg (Nat.not_le.2 hcount)]
              refine gives_lift_bind (Checked.Cluster.ofSectors_eq p.data) ?_
              by_cases hclusters : Cluster.maxCount < (Cluster.ofSectors p.data).length
              · rw [if_pos hclusters, if_pos hclusters]; rfl
              · rw [if_neg hclusters, if_neg hclusters]
                refine gives_lift_bind (newDescriptor_eq d' field f c p.data) ?_
                refine (gives_writeSectors _ d').bind fun _ d' _ => ?_
                refine (gives_writeSector _ _ d').bind fun _ d' _ => ?_
                refine (gives_writeIndex _ d').bind fun _ d' _ => ?_
                exact (gives_keepBitmap _ d').bind fun _ d' _ => gives_writeInfo d'

theorem gives_delete (name : String) (d : Disk) :
    (delete name).Gives d ((Steps.delete name).result d) := by
  refine (gives_find name d).bind fun e d' _ => ?_
  by_cases hprotected : e.file.isProtected = true
  · rw [if_pos hprotected, if_pos hprotected]; rfl
  · rw [if_neg hprotected, if_neg hprotected, Steps.get_bind]
    refine gives_get_bind (gives_lift_bind (sectors_eq e.file) ?_)
    refine gives_lift_bind (Checked.Bitmap.markAll_eq d'.bitmap _ false) ?_
    refine (gives_entries d').bind fun files d' _ => ?_
    refine (gives_writeIndex _ d').bind fun _ d' _ => ?_
    exact (gives_keepBitmap _ d').bind fun _ d' _ => gives_writeInfo d'

theorem gives_rename (old new : String) (d : Disk) :
    (rename old new).Gives d ((Steps.rename old new).result d) := by
  refine gives_lift_bind (Checked.packName_eq new) ?_
  rw [Steps.rename]
  cases packName new with
  | none => rfl
  | some field =>
      refine (gives_find old d).bind fun e d' _ => ?_
      refine (gives_attempt (gives_find new d')).bind fun found d' _ => ?_
      by_cases hconflict : old ≠ new ∧ found.isOk = true
      · rw [if_pos hconflict, if_pos hconflict]; rfl
      · rw [if_neg hconflict, if_neg hconflict]
        refine (gives_writeSector _ _ d').bind fun _ d' _ => ?_
        exact (gives_entries d').bind fun files d' _ => gives_writeIndex files d'

theorem gives_protect (name : String) (on : Bool) (d : Disk) :
    (protect name on).Gives d ((Steps.protect name on).result d) :=
  (gives_find name d).bind fun _ d' _ => gives_writeSector _ _ d'

/-- The program of an operation does what its steps do. -/
theorem gives_ofOperation (op : Operation) (d : Disk) :
    (ofOperation op).Gives d ((Steps.ofOperation op).result d) := by
  cases op with
  | add name data f =>
      exact gives_lift_bind (contentsOf_eq f data)
        ((gives_liftExcept _ d).bind fun c d' _ => gives_writeFile name f c d')
  | addRecords name records f =>
      exact gives_lift_bind (contentsOfRecords_eq f records)
        ((gives_liftExcept _ d).bind fun c d' _ => gives_writeFile name f c d')
  | addSpecial name raw f count =>
      exact gives_lift_bind (contentsOfRaw_eq raw count) (gives_writeFile name f _ d)
  | delete name => exact gives_delete name d
  | rename old new => exact gives_rename old new d
  | protect name on => exact gives_protect name on d
  | setClock t => rfl

end Program

end RawDisk

end TiBench.Volume
