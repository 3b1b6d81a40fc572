import TiBench.Volume.Disk.Basic
import TiBench.Volume.Catalog
import TiBench.Record.Codec
import TiBench.Record.Payload
import TiBench.Compare.Mask

/-!
# Reading a disk

The contents, format and catalog row of each file, and the bytes of the image that depend on when
files were written.
-/

namespace TiBench.Volume.Disk

/-- The data sectors of a file. -/
def readData (d : Disk) (file : Descriptor) : Except VolumeError (List Bytes) :=
  file.sectors.mapM fun n => (d.image.read n).map Block.bytes |>.mapError .image

/-- The format that the descriptor of the file `name` gives. -/
def formatIn (name : String) (file : Descriptor) : Except VolumeError FileFormat :=
  match file.format? with
  | some f => .ok f
  | none => .error (.damaged (.format name))

/-- The format of a file. -/
def formatOf (d : Disk) (name : String) : Except VolumeError FileFormat := do
  formatIn name (← d.find name).file

/-- The records of a file, the bad ones among them as errors. -/
def extractRecords (d : Disk) (name : String) :
    Except VolumeError (List (Except RecordError Bytes)) := do
  let e ← d.find name
  let f ← formatIn name e.file
  let sectors ← d.readData e.file
  (f.decode e.file.count.toNat sectors).mapError .record

/-- The bytes of a program with this many data sectors, the last of which holds `eof` bytes, or all
if that is zero. -/
def programSize (dataSectors : Nat) (eof : UInt8) : Nat :=
  if dataSectors = 0 then 0
  else if eof = 0 then dataSectors * sectorSize
  else (dataSectors - 1) * sectorSize + eof.toNat

/-- A payload made of records, cut to its length: internal fixed records keep the length of a short
last one, and display records whether the last line ended. -/
def cutPayload (file : Descriptor) (f : RecordFormat) (records : List Bytes) (data : Bytes) :
    Bytes :=
  match f.content, f.family with
  | .internal, .fixed =>
    if 0 < file.eof.toNat ∧ file.eof.toNat ≤ f.length ∧ records ≠ [] then
      data.take (data.length - (f.length - file.eof.toNat))
    else data
  | .internal, .variable => data
  | .display, _ =>
    if file.has Descriptor.unterminatedFlag ∧ data.getLast? = some Payload.lineFeed then
      data.dropLast
    else data

/-- The payload of a file. A bad record is an error. -/
def extract (d : Disk) (name : String) : Except VolumeError Bytes := do
  let e ← d.find name
  match ← formatIn name e.file with
  | .program =>
    let sectors ← d.readData e.file
    return sectors.flatten.take (programSize e.file.dataSectors.toNat e.file.eof)
  | .records f =>
    let records ← (Record.collect (← d.extractRecords name)).mapError .record
    return cutPayload e.file f records (Payload.join (.records f) records)

/-- The number of records of a file, as a catalog counts them: a program has none. -/
def recordCount (d : Disk) (file : Descriptor) : Except VolumeError Nat :=
  match file.format? with
  | none | some .program => .ok 0
  | some (.records f) =>
    match f.family with
    | .fixed => .ok file.count.toNat
    | .variable => (d.readData file).map fun sectors => (f.decode file.count.toNat sectors).length

/-- The catalog row of a file. -/
def row (d : Disk) (file : Descriptor) : Except VolumeError CatalogRow := do
  let records ← d.recordCount file
  return {
    name := file.fileName
    sectors := file.dataSectors.toNat + 1
    format := (file.format?.map FileFormat.text).getD "?"
    bytes := file.dataSectors.toNat * sectorSize
    records := records
    isProtected := file.isProtected
    updated := Timestamp.unpack file.updated }

/-- The catalog rows in the order of the index. -/
def list (d : Disk) : Except VolumeError (List CatalogRow) := do
  (← d.entries).mapM fun e => d.row e.file

/-- The catalog as text. -/
def catalogText (d : Disk) : Except VolumeError String := do
  return catalog d.volumeName (← d.list) d.usedSectors d.freeSectors

/-- The timestamps of every file in the index: the bytes in which two disks with the same history
may differ. -/
def standardize (d : Disk) : Except VolumeError Compare.Mask := do
  return .ofRanges ((← d.entries).map fun e =>
    ⟨e.sector * sectorSize + Descriptor.timestampOffset, Descriptor.timestampSize⟩)

end TiBench.Volume.Disk
