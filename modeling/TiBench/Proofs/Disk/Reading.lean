import TiBench.Proofs.Disk.Outcome

/-!
# What reading a file gives

On a consistent disk, all that reading a file gives depends on a few entries of its descriptor and
on the bytes of its data sectors.
-/

namespace TiBench.Volume

/-- The same error about a file of another name. -/
def VolumeError.renamed (new : String) : VolumeError → VolumeError
  | .fileNotFound _ => .fileNotFound new
  | .damaged (.format _) => .damaged (.format new)
  | e => e

namespace Disk

/-- What the three ways to read a file give. -/
structure Reading where
  payload : Except VolumeError Bytes
  records : Except VolumeError (List (Except RecordError Bytes))
  format : Except VolumeError FileFormat

namespace Reading

/-- The reading of a file that is not there. -/
def missing (name : String) : Reading :=
  ⟨.error (.fileNotFound name), .error (.fileNotFound name), .error (.fileNotFound name)⟩

/-- The same reading for a file of another name. -/
def renamed (new : String) (r : Reading) : Reading :=
  ⟨r.payload.mapError (·.renamed new), r.records.mapError (·.renamed new),
    r.format.mapError (·.renamed new)⟩

end Reading

/-- What reading a file of a disk gives. -/
def reading (d : Disk) (name : String) : Reading :=
  ⟨d.extract name, d.extractRecords name, d.formatOf name⟩

/-- A file as it is read: its descriptor, and the bytes of its data sectors. -/
structure Stored where
  file : Descriptor
  data : List Bytes

namespace Stored

/-- The records of the file. -/
def records (name : String) (s : Stored) :
    Except VolumeError (List (Except RecordError Bytes)) := do
  let f ← formatIn name s.file
  (f.decode s.file.count.toNat s.data).mapError .record

/-- The payload of the file. -/
def payload (name : String) (s : Stored) : Except VolumeError Bytes := do
  match ← formatIn name s.file with
  | .program => return s.data.flatten.take (programSize s.file.dataSectors.toNat s.file.eof)
  | .records f =>
    let records ← (Record.collect (← s.records name)).mapError .record
    return cutPayload s.file f records (Payload.join (.records f) records)

/-- What reading the file under a name gives. -/
def reading (name : String) (s : Stored) : Reading :=
  ⟨s.payload name, s.records name, formatIn name s.file⟩

variable {s t : Stored}

theorem records_eq {name : String} {f : FileFormat} (h : s.file.format? = some f) :
    s.records name = (f.decode s.file.count.toNat s.data).mapError .record := by
  rw [records, formatIn, h]; rfl

theorem reading_of_format_none {name : String} (h : s.file.format? = none) :
    s.reading name = ⟨.error (.damaged (.format name)), .error (.damaged (.format name)),
      .error (.damaged (.format name))⟩ := by
  rw [reading, payload, records, formatIn, h]; rfl

theorem reading_of_program {name : String} (h : s.file.format? = some .program) :
    s.reading name = ⟨.ok (s.data.flatten.take (programSize s.file.dataSectors.toNat s.file.eof)),
      .error (.record .notRecords), .ok .program⟩ := by
  rw [reading, payload, records_eq h, formatIn, h]; rfl

theorem reading_of_records {name : String} {f : RecordFormat}
    (h : s.file.format? = some (.records f)) :
    s.reading name =
      ⟨((Record.collect (f.decode s.file.count.toNat s.data)).mapError .record).map fun records =>
          cutPayload s.file f records (Payload.join (.records f) records),
        .ok (f.decode s.file.count.toNat s.data), .ok (.records f)⟩ := by
  rw [reading, payload, records_eq h, formatIn, h]
  change Reading.mk ((Record.collect (f.decode s.file.count.toNat s.data)).mapError .record >>=
    fun records => .ok (cutPayload s.file f records (Payload.join (.records f) records))) _ _ = _
  cases Record.collect (f.decode s.file.count.toNat s.data) <;> rfl

/-- The name matters in errors only. -/
theorem renamed_reading (old new : String) (s : Stored) :
    (s.reading old).renamed new = s.reading new := by
  cases h : s.file.format? with
  | none => rw [reading_of_format_none h, reading_of_format_none h]; rfl
  | some f =>
      cases f with
      | program => rw [reading_of_program h, reading_of_program h]; rfl
      | records f =>
          rw [reading_of_records h, reading_of_records h]
          cases Record.collect (f.decode s.file.count.toNat s.data) <;> rfl

/-- Of the descriptor, the format, the counts and the mark of an unended line matter. -/
theorem reading_congr (hformat : s.file.format? = t.file.format?)
    (hsectors : s.file.dataSectors = t.file.dataSectors) (heof : s.file.eof = t.file.eof)
    (hcount : s.file.count = t.file.count)
    (hline : s.file.has Descriptor.unterminatedFlag = t.file.has Descriptor.unterminatedFlag)
    (hdata : s.data = t.data) (name : String) : s.reading name = t.reading name := by
  have hcut : cutPayload s.file = cutPayload t.file := by
    funext f records data
    rw [cutPayload, cutPayload, heof, hline]
  cases h : t.file.format? with
  | none => rw [reading_of_format_none h, reading_of_format_none (hformat.trans h)]
  | some f =>
      cases f with
      | program =>
          rw [reading_of_program h, reading_of_program (hformat.trans h), hdata, hsectors, heof]
      | records f =>
          rw [reading_of_records h, reading_of_records (hformat.trans h), hdata, hcount, hcut]

end Stored

/-! ## Files of a disk -/

variable {d : Disk}

/-- A file of the disk as it is read. -/
def stored (d : Disk) (e : Entry) : Stored :=
  ⟨e.file, e.file.sectors.map fun s => (d.peek s).bytes⟩

theorem readData_eq (hd : d.Consistent) {e : Entry} (he : e ∈ d.files) :
    d.readData e.file = .ok (d.stored e).data := by
  refine readData_eq_ok fun s hs => lt_count_of_lt_total (hd.bounds (mem_files.1 he).1 ?_).2
  rw [holding, ← file_of_mem_files he]
  exact List.mem_cons_of_mem _ hs

theorem reading_of_find (hd : d.Consistent) {name : String} {e : Entry} (he : d.find name = .ok e) :
    d.reading name = (d.stored e).reading name := by
  have hdata := readData_eq hd (mem_files_of_find he).1
  have hrecords : d.extractRecords name = (d.stored e).records name := by
    rw [extractRecords, he, Result.ok_bind, Stored.records]
    change (formatIn name e.file >>= _) = (formatIn name e.file >>= _)
    rw [hdata]; rfl
  have hpayload : d.extract name = (d.stored e).payload name := by
    rw [extract, he, Result.ok_bind, Stored.payload, hrecords]
    change (formatIn name e.file >>= _) = (formatIn name e.file >>= _)
    rw [hdata]; rfl
  rw [reading, hrecords, hpayload, Stored.reading, formatOf, he]; rfl

/-! ## New files -/

/-- A new file of a format as it is read, wherever on the volume it lies. -/
def Contents.stored (f : FileFormat) (c : Contents) : Stored where
  file :=
    { Descriptor.new (Block.zero nameSize) f with
      flags := Descriptor.formatFlags f ||| c.flags
      dataSectors := UInt16.ofNat c.sectors.length
      eof := c.eof
      count := c.count }
  data := c.sectors.map Block.bytes

theorem Added.reading_stored {d' : Disk} {p : Placement} {field : Block nameSize} {f : FileFormat}
    {c : Contents} (h : Added d d' p c.sectors (d.newDescriptor field f c p.data))
    (hp : p.Fits d c.sectors.length)
    (hsectors : (d.newDescriptor field f c p.data).sectors = p.data) (name : String) :
    (d'.stored ⟨p.descriptor, d.newDescriptor field f c p.data⟩).reading name
      = (c.stored f).reading name := by
  refine Stored.reading_congr ?_ ?_ ?_ ?_ ?_ ?_ name
  · rfl
  · exact congrArg UInt16.ofNat hp.length_data
  · rfl
  · rfl
  · rfl
  · change (d.newDescriptor field f c p.data).sectors.map (fun s => (d'.peek s).bytes)
      = c.sectors.map Block.bytes
    rw [hsectors, ← h.data_eq, List.map_map]; rfl

/-- Protection does not matter for reading. -/
theorem reading_protect (file : Descriptor) (on : Bool) (data : List Bytes) (name : String) :
    Stored.reading name ⟨file.protect on, data⟩ = Stored.reading name ⟨file, data⟩ := by
  refine Stored.reading_congr ?_ ?_ ?_ ?_ ?_ ?_ name
  · exact file.format?_protect on
  · rfl
  · rfl
  · rfl
  · exact file.has_protect (by decide) on
  · rfl

theorem reading_of_find_error {name : String} (h : d.find name = .error (.fileNotFound name)) :
    d.reading name = .missing name := by
  rw [reading, extract, extractRecords, formatOf, h]; rfl

end Disk

end TiBench.Volume
