import TiBench.Proofs.Checked.Change

/-!
# Reading access by access

What a disk is asked, by accesses each of which might be out of range: the records and payloads of
files whatever their descriptors say, the catalog, the timestamps, and the owners of all sectors.
-/

namespace TiBench

namespace Volume.RawDisk.Program

open Disk (Entry Steps)

variable {α β : Type} {d : Disk}

/-! ## Programs -/

def readData (file : Descriptor) : Program (List Bytes) := do
  (← sectors file).mapM fun n => do return (← readSector n).bytes

def formatOf (name : String) : Program FileFormat := do
  liftExcept (Disk.formatIn name (← find name).file)

def extractRecords (name : String) : Program (List (Except RecordError Bytes)) := do
  let e ← find name
  let f ← liftExcept (Disk.formatIn name e.file)
  let data ← readData e.file
  liftExcept (← ((Checked.decode f e.file.count.toNat data).adapt VolumeError.record).run)

/-- The bytes of a program with this many data sectors. -/
def programSize (dataSectors : Nat) (eof : UInt8) : Checked Nat := do
  if dataSectors = 0 then return 0
  else if eof = 0 then return dataSectors * sectorSize
  else return (← Checked.sub dataSectors 1) * sectorSize + eof.toNat

/-- A payload made of records, cut to its length. -/
def cutPayload (file : Descriptor) (f : RecordFormat) (records : List Bytes) (data : Bytes) :
    Checked Bytes :=
  match f.content, f.family with
  | .internal, .fixed => do
    if 0 < file.eof.toNat ∧ file.eof.toNat ≤ f.length ∧ records ≠ [] then
      let unused ← Checked.sub f.length file.eof.toNat
      return data.take (← Checked.sub data.length unused)
    else return data
  | .internal, .variable => return data
  | .display, _ =>
    if file.has Descriptor.unterminatedFlag ∧ data.getLast? = some Payload.lineFeed then
      return data.dropLast
    else return data

def extract (name : String) : Program Bytes := do
  let e ← find name
  match ← liftExcept (Disk.formatIn name e.file) with
  | .program =>
    let data ← readData e.file
    return data.flatten.take (← programSize e.file.dataSectors.toNat e.file.eof)
  | .records f =>
    let decoded ← extractRecords name
    let records ← liftExcept ((Record.collect decoded).mapError VolumeError.record)
    cutPayload e.file f records (Payload.join (.records f) records)

/-- The number of records of a file, as a catalog counts them. -/
def recordCount (file : Descriptor) : Program Nat :=
  match file.format? with
  | none | some .program => return 0
  | some (.records f) =>
    match f.family with
    | .fixed => return file.count.toNat
    | .variable => do
      let data ← readData file
      return (← Checked.decodeRecords f file.count.toNat data).length

def row (file : Descriptor) : Program CatalogRow := do
  let records ← recordCount file
  let updated ← Checked.unpackTime file.updated
  return {
    name := file.fileName
    sectors := file.dataSectors.toNat + 1
    format := (file.format?.map FileFormat.text).getD "?"
    bytes := file.dataSectors.toNat * sectorSize
    records := records
    isProtected := file.isProtected
    updated := updated }

def list : Program (List CatalogRow) := do (← entries).mapM fun e => row e.file

def catalogText : Program String := do
  let rows ← list
  let d ← get
  let free := d.bitmap.countFree d.total
  return catalog (unpackName d.info.name.bytes) rows (← Checked.sub d.total free) free

def standardize : Program Compare.Mask := do
  return .ofRanges ((← entries).map fun e =>
    ⟨e.sector * sectorSize + Descriptor.timestampOffset, Descriptor.timestampSize⟩)

/-- One owner more of a sector. -/
def claim (owners : List Nat) (s : Nat) : Checked (List Nat) := do
  Checked.set owners s ((← Checked.get owners s) + 1)

/-- One owner more of a sector that a file lists. -/
def claimData (file : Descriptor) (owners : List Nat) (s : Nat) :
    ExceptT VolumeError Checked (List Nat) :=
  if s < owners.length then claim owners s else throw (.damaged (.data file.fileName))

/-- One owner more of the sectors of a file. -/
def claimFile (owners : List Nat) (e : Entry) : ExceptT VolumeError Checked (List Nat) := do
  let owners ← claim owners e.sector
  (← sectors e.file).foldlM (claimData e.file) owners

/-- What is wrong with each sector, given the number of its owners. -/
def problems (d : RawDisk) (owners : List Nat) : Checked (List (Option Problem)) :=
  (List.range d.total).mapM fun s => do
    return Disk.problemAt s (← Checked.get owners s) (d.bitmap.isUsed s)

def check : Program (List Problem) := do
  let d ← get
  let owners ← claim (List.replicate d.total 0) infoSector
  let owners ← claim owners indexSector
  let fs ← entries
  let owners ← liftExcept (← (fs.foldlM claimFile owners).run)
  return (← problems d owners).filterMap id

/-! ## What the programs give -/

theorem gives_entries_read (d : Disk) : entries.Gives d (d.entries, d) := by
  rw [← Steps.result_entries]; exact gives_entries d

theorem gives_find_read (name : String) (d : Disk) : (find name).Gives d (d.find name, d) := by
  rw [← Steps.result_find]; exact gives_find name d

theorem gives_liftExcept_read (x : Except VolumeError α) (d : Disk) :
    (liftExcept x : Program α).Gives d (x, d) := by
  cases x <;> rfl

theorem gives_lift {c : Checked α} {a : α} (h : c = .ok a) (d : Disk) :
    (liftM c : Program α).Gives d (.ok a, d) := by
  rw [h]; rfl

theorem gives_mapM_read {t : α → Program β} {f : α → Except VolumeError β}
    (h : ∀ a, (t a).Gives d (f a, d)) (as : List α) : (as.mapM t).Gives d (as.mapM f, d) := by
  induction as with
  | nil => rfl
  | cons a as ih =>
      rw [List.mapM_cons, List.mapM_cons]
      exact (h a).read_bind fun b _ => ih.read_bind fun bs _ => rfl

theorem gives_readSector_read (n : Nat) (d : Disk) :
    (readSector n).Gives d ((d.image.read n).mapError .image, d) := by
  refine gives_get_bind (gives_lift_bind (Checked.Image.read_eq d.image n) ?_)
  cases d.image.read n <;> rfl

theorem gives_readData (file : Descriptor) (d : Disk) :
    (readData file).Gives d (d.readData file, d) := by
  refine gives_lift_bind (sectors_eq file) (gives_mapM_read (fun n => ?_) _)
  have hswap : ((d.image.read n).map Block.bytes).mapError VolumeError.image
      = ((d.image.read n).mapError VolumeError.image).map Block.bytes := by
    cases d.image.read n <;> rfl
  rw [hswap]
  exact (gives_readSector_read n d).read_map fun _ _ => rfl

theorem gives_formatOf (name : String) (d : Disk) :
    (formatOf name).Gives d (d.formatOf name, d) :=
  (gives_find_read name d).read_bind fun _ _ => gives_liftExcept_read _ d

theorem gives_extractRecords (name : String) (d : Disk) :
    (extractRecords name).Gives d (d.extractRecords name, d) := by
  refine (gives_find_read name d).read_bind fun e _ => ?_
  refine (gives_liftExcept_read _ d).read_bind fun f _ => ?_
  refine (gives_readData e.file d).read_bind fun data _ => ?_
  exact gives_lift_bind (Checked.run_adapt (Checked.decode_eq f _ data) _)
    (gives_liftExcept_read _ d)

theorem programSize_eq (dataSectors : Nat) (eof : UInt8) :
    programSize dataSectors eof = .ok (Disk.programSize dataSectors eof) := by
  rw [programSize, Disk.programSize]
  by_cases hnone : dataSectors = 0
  · rw [if_pos hnone, if_pos hnone]; rfl
  · rw [if_neg hnone, if_neg hnone]
    by_cases heof : eof = 0
    · rw [if_pos heof, if_pos heof]; rfl
    · rw [if_neg heof, if_neg heof, Checked.sub_eq (Nat.pos_of_ne_zero hnone)]; rfl

/-- What a short last record leaves unused is no more than one record, and there is one. -/
theorem cutPayload_eq (file : Descriptor) {f : RecordFormat} {records : List Bytes}
    (h : f.content = .internal → f.family = .fixed → ∀ r ∈ records, r.length = f.length) :
    cutPayload file f records (Payload.join (.records f) records)
      = .ok (Disk.cutPayload file f records (Payload.join (.records f) records)) := by
  rcases hcontent : f.content with _ | _
  · simp only [cutPayload, Disk.cutPayload, hcontent]
    split <;> rfl
  · rcases hfamily : f.family with _ | _
    · simp only [cutPayload, Disk.cutPayload, Payload.join, hcontent, hfamily]
      split
      · rename_i hcut
        obtain ⟨-, heof, hrecords⟩ := hcut
        have hlen : f.length ≤ records.flatten.length := by
          obtain ⟨r, rest, rfl⟩ := List.exists_cons_of_ne_nil hrecords
          rw [List.flatten_cons, List.length_append, h hcontent hfamily r List.mem_cons_self]
          exact Nat.le_add_right _ _
        rw [Checked.sub_eq heof, Result.ok_bind,
          Checked.sub_eq (Nat.le_trans (Nat.sub_le _ _) hlen)]
        rfl
      · rfl
    · simp only [cutPayload, Disk.cutPayload, hcontent, hfamily]
      rfl

theorem decoded_eq_of_extractRecords {name : String} {e : Entry} {f : RecordFormat}
    {decoded : List (Except RecordError Bytes)} (he : d.find name = .ok e)
    (hf : Disk.formatIn name e.file = .ok (.records f)) (h : d.extractRecords name = .ok decoded) :
    ∃ sectors, decoded = f.decode e.file.count.toNat sectors := by
  rw [Disk.extractRecords, he, Result.ok_bind] at h
  obtain ⟨g, hg, h⟩ := Result.bind_eq_ok.1 h
  obtain rfl := Except.ok.inj (hf.symm.trans hg)
  obtain ⟨sectors, -, h⟩ := Result.bind_eq_ok.1 h
  exact ⟨sectors, (Except.ok.inj h).symm⟩

theorem gives_extract (name : String) (d : Disk) : (extract name).Gives d (d.extract name, d) := by
  rw [Disk.extract]
  refine (gives_find_read name d).read_bind fun e he => ?_
  refine (gives_liftExcept_read _ d).read_bind fun f hf => ?_
  cases f with
  | program =>
      refine (gives_readData e.file d).read_bind fun data _ => ?_
      exact gives_lift_bind (programSize_eq _ _) rfl
  | records f =>
      refine (gives_extractRecords name d).read_bind fun decoded hdecoded => ?_
      refine (gives_liftExcept_read _ d).read_bind fun records hrecords => ?_
      refine gives_lift (cutPayload_eq e.file fun hcontent hfamily => ?_) d
      obtain ⟨sectors, rfl⟩ := decoded_eq_of_extractRecords he hf hdecoded
      exact RecordFormat.length_of_collect_decode hcontent hfamily
        (Result.mapError_eq_ok.1 hrecords)

theorem gives_recordCount (file : Descriptor) (d : Disk) :
    (recordCount file).Gives d (d.recordCount file, d) := by
  rw [recordCount, Disk.recordCount]
  rcases file.format? with _ | _ | f
  · rfl
  · rfl
  · dsimp only
    rcases f.family with _ | _
    · rfl
    · exact (gives_readData file d).read_map fun data _ =>
        gives_lift_bind (Checked.decodeRecords_eq f file.count.toNat data) (gives_pure _ d)

theorem gives_row (file : Descriptor) (d : Disk) : (row file).Gives d (d.row file, d) :=
  (gives_recordCount file d).read_bind fun _ _ =>
    gives_lift_bind (Checked.unpackTime_eq file.updated) rfl

theorem gives_list (d : Disk) : list.Gives d (d.list, d) := by
  rw [list, Disk.list]
  exact (gives_entries_read d).read_bind fun fs _ =>
    gives_mapM_read (fun e : Entry => gives_row e.file d) fs

theorem gives_catalogText (d : Disk) : catalogText.Gives d (d.catalogText, d) := by
  have hfree := d.bitmap.countFree_le d.total
  refine (gives_list d).read_bind fun rows _ => ?_
  exact gives_get_bind (gives_lift_bind (Checked.sub_eq hfree) rfl)

theorem gives_standardize (d : Disk) : standardize.Gives d (d.standardize, d) :=
  (gives_entries_read d).read_bind fun _ _ => rfl

/-! ## Owners -/

/-- How often each sector of a volume stands in a list. -/
def counts (total : Nat) (owned : List Nat) : List Nat := (List.range total).map owned.count

theorem length_counts (total : Nat) (owned : List Nat) : (counts total owned).length = total := by
  rw [counts, List.length_map, List.length_range]

theorem getElem?_counts {total s : Nat} (h : s < total) (owned : List Nat) :
    (counts total owned)[s]? = some (owned.count s) := by
  rw [counts, List.getElem?_map, List.getElem?_range h]; rfl

theorem claim_eq {total s : Nat} (h : s < total) (owned : List Nat) :
    claim (counts total owned) s = .ok (counts total (owned ++ [s])) := by
  have hset : (counts total owned).set s (owned.count s + 1) = counts total (owned ++ [s]) := by
    refine List.ext_getElem? fun t => ?_
    rw [List.getElem?_set, length_counts, if_pos h]
    by_cases ht : t < total
    · rw [getElem?_counts ht, getElem?_counts ht, List.count_append, List.count_singleton]
      by_cases hst : s = t
      · rw [if_pos hst, hst, if_pos (beq_self_eq_true t)]
      · rw [if_neg hst, if_neg (by rw [beq_iff_eq]; exact hst)]; rfl
    · have hnone (l : List Nat) : (counts total l)[t]? = none :=
        List.getElem?_eq_none (by rw [length_counts]; exact Nat.not_lt.1 ht)
      rw [hnone, hnone, if_neg (by omega)]
  rw [claim, Checked.get_eq (getElem?_counts h owned), Result.ok_bind,
    Checked.set_eq (by rw [length_counts]; exact h), hset]

theorem foldlM_claimData (file : Descriptor) {total : Nat} (owned sectors : List Nat) :
    (sectors.foldlM (claimData file) (counts total owned)).run
      = .ok (if sectors.all (· < total) then .ok (counts total (owned ++ sectors))
        else .error (.damaged (.data file.fileName))) := by
  induction sectors generalizing owned with
  | nil => rw [List.append_nil]; rfl
  | cons s sectors ih =>
      rw [List.foldlM_cons, claimData, length_counts, List.all_cons]
      by_cases hs : s < total
      · rw [if_pos hs, decide_eq_true hs, Bool.true_and, Checked.run_lift_bind (claim_eq hs owned),
          ih, List.append_assoc]
        rfl
      · rw [if_neg hs, decide_eq_false hs, Bool.false_and]; rfl

theorem claimFile_eq {e : Entry} (h : e.sector < d.total) (owned : List Nat) :
    (claimFile (counts d.total owned) e).run
      = .ok ((d.ownedBy e).map fun o => counts d.total (owned ++ o)) := by
  rw [claimFile, Checked.run_lift_bind (claim_eq h owned),
    Checked.run_lift_bind (sectors_eq e.file), foldlM_claimData, Disk.ownedBy, List.append_assoc]
  split <;> rfl

theorem foldlM_claimFile {fs : List Entry} (h : ∀ e ∈ fs, e.sector < d.total) (owned : List Nat) :
    (fs.foldlM claimFile (counts d.total owned)).run
      = .ok ((fs.mapM d.ownedBy).map fun os => counts d.total (owned ++ os.flatten)) := by
  induction fs generalizing owned with
  | nil =>
      change Except.ok (Except.ok (counts d.total owned))
        = Except.ok (Except.ok (counts d.total (owned ++ [].flatten)))
      rw [List.flatten_nil, List.append_nil]
  | cons e fs ih =>
      have hfirst := claimFile_eq (h e List.mem_cons_self) owned
      rw [List.foldlM_cons, List.mapM_cons]
      cases ho : d.ownedBy e with
      | error err =>
          rw [ho] at hfirst
          rw [ExceptT.run_bind, hfirst]; rfl
      | ok o =>
          rw [ho] at hfirst
          rw [ExceptT.run_bind, hfirst, Result.ok_bind, Result.ok_bind]
          dsimp only [Except.map]
          rw [ih fun e he => h e (List.mem_cons_of_mem _ he)]
          cases fs.mapM d.ownedBy with
          | error err => rfl
          | ok os =>
              change Except.ok (Except.ok (counts d.total (owned ++ o ++ os.flatten)))
                = Except.ok (Except.ok (counts d.total (owned ++ (o :: os).flatten)))
              rw [List.flatten_cons, List.append_assoc]

theorem problems_eq (d : Disk) (owned : List Nat) : problems d.raw (counts d.total owned)
    = .ok ((List.range d.total).map fun s =>
      Disk.problemAt s (owned.count s) (d.bitmap.isUsed s)) := by
  refine Result.mapM_eq_ok fun s hs => ?_
  have hs : s < d.total := List.mem_range.1 hs
  rw [Checked.get_eq (getElem?_counts hs owned)]; rfl

theorem check_eq (d : Disk) : d.check = (do
    let os ← (← d.entries).mapM d.ownedBy
    let owned := [infoSector] ++ [indexSector] ++ os.flatten
    return (List.range d.total).filterMap fun s =>
      Disk.problemAt s (owned.count s) (d.bitmap.isUsed s)) := by
  rw [Disk.check, Disk.owned]
  cases d.entries with
  | error e => rfl
  | ok fs =>
      rw [Result.ok_bind, Result.ok_bind]
      cases fs.mapM d.ownedBy <;> rfl

theorem gives_check (d : Disk) : check.Gives d (d.check, d) := by
  have hinfo : infoSector < d.total := Nat.lt_trans (by decide) d.describes_files
  have hfirst : claim (List.replicate d.total 0) infoSector
      = .ok (counts d.total [infoSector]) := by
    have hnone : counts d.total [] = List.replicate d.total 0 := by
      rw [counts, List.eq_replicate_iff, List.length_map, List.length_range]
      refine ⟨rfl, fun n hn => ?_⟩
      obtain ⟨_, -, rfl⟩ := List.mem_map.1 hn
      exact List.count_nil
    rw [← hnone]; exact claim_eq hinfo []
  rw [check_eq]
  refine gives_get_bind (gives_lift_bind hfirst ?_)
  refine gives_lift_bind (claim_eq d.indexSector_lt_total [infoSector]) ?_
  refine (gives_entries_read d).read_bind fun fs hfs => ?_
  have hlt : ∀ e ∈ fs, e.sector < d.total := by
    obtain ⟨hpointers, rfl⟩ := Disk.entries_eq_ok.1 hfs
    exact fun e he => hpointers _ (Disk.mem_files.1 he).1
  refine gives_lift_bind (foldlM_claimFile hlt _) ?_
  cases fs.mapM d.ownedBy with
  | error e => rfl
  | ok os =>
      have hfound := gives_lift_bind (f := fun found => (pure (found.filterMap id) : Program _))
        (problems_eq d ([infoSector] ++ [indexSector] ++ os.flatten)) (gives_pure _ d)
      rw [List.filterMap_map] at hfound
      exact hfound

end Volume.RawDisk.Program

end TiBench
