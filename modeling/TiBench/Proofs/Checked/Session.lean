import TiBench.Proofs.Checked.Reading

/-!
# Sessions on any image

Bytes of any kind are taken for a disk, which is then asked to do and to tell things one after the
other. Nothing that the bytes or the calls hold ends this with a fault: loading and every call after
it come to a value or an error, and these are what the disk itself gives.
-/

namespace TiBench.Volume

/-- What a disk can be asked to do or to tell. -/
inductive Call where
  | change (op : Operation)
  | extract (name : String)
  | extractRecords (name : String)
  | formatOf (name : String)
  | list
  | catalogText
  | standardize
  | check

/-- What a disk answers to a call that is no error. -/
inductive Answer where
  | done
  | payload (data : Bytes)
  | records (records : List (Except RecordError Bytes))
  | format (f : FileFormat)
  | rows (rows : List CatalogRow)
  | text (catalog : String)
  | mask (mask : Compare.Mask)
  | problems (found : List Problem)

namespace Disk

/-- The answer to a call, and the disk after it. -/
def answer (d : Disk) : Call → Except VolumeError Answer × Disk
  | .change op =>
    match d.apply op with
    | ⟨d', none⟩ => (.ok .done, d')
    | ⟨d', some e⟩ => (.error e, d')
  | .extract name => ((d.extract name).map .payload, d)
  | .extractRecords name => ((d.extractRecords name).map .records, d)
  | .formatOf name => ((d.formatOf name).map .format, d)
  | .list => (d.list.map .rows, d)
  | .catalogText => (d.catalogText.map .text, d)
  | .standardize => (d.standardize.map .mask, d)
  | .check => (d.check.map .problems, d)

/-- The answers to calls one after the other, and the disk after them. An error ends nothing. -/
def answers (d : Disk) : List Call → List (Except VolumeError Answer) × Disk
  | [] => ([], d)
  | c :: calls =>
    let rest := (d.answer c).2.answers calls
    ((d.answer c).1 :: rest.1, rest.2)

end Disk

namespace RawDisk

/-- The program of a call. -/
def Program.ofCall : Call → Program Answer
  | .change op => do
    Program.ofOperation op
    return .done
  | .extract name => do return .payload (← Program.extract name)
  | .extractRecords name => do return .records (← Program.extractRecords name)
  | .formatOf name => do return .format (← Program.formatOf name)
  | .list => do return .rows (← Program.list)
  | .catalogText => do return .text (← Program.catalogText)
  | .standardize => do return .mask (← Program.standardize)
  | .check => do return .problems (← Program.check)

def answers (d : RawDisk) : List Call → Checked (List (Except VolumeError Answer) × RawDisk)
  | [] => return ([], d)
  | c :: calls => do
    let first ← (Program.ofCall c).result d
    let rest ← first.2.answers calls
    return (first.1 :: rest.1, rest.2)

/-- Takes bytes for a disk if they are whole sectors, and the first of them describes a formatted
volume that they and a bitmap can hold. -/
def load (clock : Timestamp) (data : Bytes) : Checked (Except VolumeError RawDisk) := do
  if data.length = 0 ∨ data.length % sectorSize ≠ 0 then
    return .error (.image (.imageSize data.length))
  else
    match ← Checked.Image.read data infoSector with
    | .error e => return .error (.image e)
    | .ok s =>
      let info := Info.ofSector s
      let total := info.total.toNat
      if info.signature ≠ Info.formatted then return .error .notFormatted
      else if total ≤ firstFileSector ∨ data.length / sectorSize < total ∨ maxSectors < total then
        return .error .notFormatted
      else return .ok ⟨data, info, clock⟩

/-- The answers to calls on the disk that bytes are taken for, and the disk after them. -/
def session (clock : Timestamp) (data : Bytes) (calls : List Call) :
    Checked (Except VolumeError (List (Except VolumeError Answer) × RawDisk)) := do
  match ← load clock data with
  | .error e => return .error e
  | .ok d => return .ok (← d.answers calls)

theorem load_eq (clock : Timestamp) (data : Bytes) :
    load clock data = .ok ((Disk.ofBytes clock data).map Disk.raw) := by
  rw [load, Disk.ofBytes]
  by_cases hsize : data.length = 0 ∨ data.length % sectorSize ≠ 0
  · have himage : SectorImage.ofBytes data = .error (.imageSize data.length) := if_pos hsize
    rw [if_pos hsize, himage]; rfl
  · have himage : SectorImage.ofBytes data = .ok (SectorImage.ofSectors data) := if_neg hsize
    rw [if_neg hsize, himage]
    generalize SectorImage.ofSectors data = image at himage
    obtain ⟨-, rfl⟩ := SectorImage.toBytes_of_ofBytes himage
    rw [Checked.Image.read_eq, Result.ok_bind, Checked.Image.length_div_sectorSize]
    dsimp only
    rw [Disk.ofImage, Disk.readInfo]
    cases image.read infoSector with
    | error e => rfl
    | ok s =>
        dsimp only
        by_cases hsignature : (Info.ofSector s).signature = Info.formatted
        · rw [if_neg (not_not_intro hsignature)]
          by_cases hbounds : (Info.ofSector s).total.toNat ≤ firstFileSector
              ∨ image.count < (Info.ofSector s).total.toNat
              ∨ maxSectors < (Info.ofSector s).total.toNat
          · have hnot : ¬(Info.ofSector s).Describes image.count := by
              rintro ⟨-, hfirst, hcount, hmax⟩
              omega
            rw [if_pos hbounds, dif_neg hnot]; rfl
          · have hdescribes : (Info.ofSector s).Describes image.count := by
              refine ⟨hsignature, ?_, ?_, ?_⟩ <;> omega
            rw [if_neg hbounds, dif_pos hdescribes]; rfl
        · rw [if_pos hsignature, dif_neg fun h => hsignature h.1]; rfl

theorem Program.gives_ofCall (c : Call) (d : Disk) : (Program.ofCall c).Gives d (d.answer c) := by
  cases c with
  | change op =>
      have hgives := Program.gives_ofOperation op d
      rw [Disk.answer, ← Disk.Steps.perform_ofOperation, Disk.Steps.perform]
      rcases hresult : (Disk.Steps.ofOperation op).result d with ⟨_ | _, d'⟩
      · rw [hresult] at hgives
        exact Program.result_bind_of_error hgives _
      · rw [hresult] at hgives
        exact Program.result_bind_of_ok hgives _
  | extract name => exact (Program.gives_extract name d).read_map fun _ _ => rfl
  | extractRecords name => exact (Program.gives_extractRecords name d).read_map fun _ _ => rfl
  | formatOf name => exact (Program.gives_formatOf name d).read_map fun _ _ => rfl
  | list => exact (Program.gives_list d).read_map fun _ _ => rfl
  | catalogText => exact (Program.gives_catalogText d).read_map fun _ _ => rfl
  | standardize => exact (Program.gives_standardize d).read_map fun _ _ => rfl
  | check => exact (Program.gives_check d).read_map fun _ _ => rfl

theorem answers_eq (d : Disk) (calls : List Call) :
    d.raw.answers calls = .ok ((d.answers calls).1, (d.answers calls).2.raw) := by
  induction calls generalizing d with
  | nil => rfl
  | cons c calls ih =>
      rw [answers, Program.gives_ofCall c d, Result.ok_bind, ih, Result.ok_bind]
      rfl

/-- Whatever bytes are taken for a disk, and whatever it is asked then, no access is out of range,
no difference is below zero and nothing is divided by zero. -/
theorem session_without_fault (clock : Timestamp) (data : Bytes) (calls : List Call) :
    session clock data calls = .ok ((Disk.ofBytes clock data).map fun d =>
      ((d.answers calls).1, (d.answers calls).2.raw)) := by
  rw [session, load_eq, Result.ok_bind]
  cases Disk.ofBytes clock data with
  | error e => rfl
  | ok d =>
      change (do return .ok (← d.raw.answers calls) : Checked (Except VolumeError _)) = _
      rw [answers_eq]
      rfl

end RawDisk

end TiBench.Volume
