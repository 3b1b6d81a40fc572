import TiBench.Volume.Disk.Read

/-!
# Changing a disk

Adding, deleting, renaming and protecting files. A change is worked out before anything is
written: what can be refused is an `Except`, and what is done is a sequence of writes that cannot
fail. Only `rename` reads the index again after its first write, so each operation returns a
`Change`, which has a disk in any case.
-/

namespace TiBench.Volume

/-- What an operation leaves behind: a disk, and the reason if it was refused. -/
structure Change where
  disk : Disk
  error? : Option VolumeError

namespace Change

/-- The operation was refused. -/
def refused (d : Disk) (e : VolumeError) : Change := ⟨d, some e⟩

/-- The operation gave `new`, or was refused and left `old`. -/
def ofExcept (old : Disk) : Except VolumeError Disk → Change
  | .ok new => ⟨new, none⟩
  | .error e => refused old e

end Change

namespace Disk

/-- The contents of a new file, with the counts and the flags that its descriptor keeps. -/
structure Contents where
  sectors : List Sector
  eof : UInt8
  count : UInt16
  flags : UInt8

/-- The sector for the next data sector of a file: the first free one from the data area on, else
the first free one before it. -/
def nextData? (m : Bitmap) (total : Nat) : Option Nat :=
  match m.firstFree? firstDataSector total with
  | some s => some s
  | none => m.firstFree? firstFileSector (min firstDataSector total)

/-- The next `n` data sectors, each marked as it is taken, and the bitmap after that. Those already
taken are in `done`, in reverse. -/
def takeData? (total : Nat) : (n : Nat) → Bitmap → (done : List Nat) → Option (List Nat × Bitmap)
  | 0, m, done => some (done.reverse, m)
  | n + 1, m, done =>
    match nextData? m total with
    | none => none
    | some s => takeData? total n (m.mark s true) (s :: done)

/-- Where a new file goes. -/
structure Placement where
  descriptor : Nat
  data : List Nat
  bitmap : Bitmap

/-- The place for a file of `n` data sectors: its descriptor record in the first free sector. -/
def place? (d : Disk) (n : Nat) : Option Placement := do
  let s ← d.bitmap.firstFree? firstFileSector d.total
  let (data, map) ← takeData? d.total n (d.bitmap.mark s true) []
  return ⟨s, data, map⟩

/-- The descriptor of a new file whose data lies in the given sectors. -/
def newDescriptor (d : Disk) (field : Block nameSize) (f : FileFormat) (c : Contents)
    (data : List Nat) : Descriptor :=
  let stamp := d.clock.pack
  let file := Descriptor.new field f
  { file with
    flags := file.flags ||| c.flags
    dataSectors := UInt16.ofNat data.length
    eof := c.eof
    count := c.count
    created := stamp
    updated := stamp
    clusters := Cluster.pack (Cluster.ofSectors data) }

/-- The disk with a new file, written only if all of it fits. -/
def addFile (d : Disk) (name : String) (f : FileFormat) (c : Contents) :
    Except VolumeError Disk := do
  let some field := packName name | .error (.badName name)
  let files ← d.entries
  if files.any (·.file.fileName == name) then .error (.nameConflict name)
  else if Index.maxFiles ≤ files.length then .error .directoryFull
  else
    let some place := d.place? c.sectors.length | .error .diskFull
    if Cluster.maxCount < (Cluster.ofSectors place.data).length then .error .diskFull
    else
      let file := d.newDescriptor field f c place.data
      return ((d.putSectors (place.data.zip c.sectors)).putDescriptor place.descriptor file
        |>.putIndex (files ++ [⟨place.descriptor, file⟩])).putBitmap place.bitmap

/-- Bytes as whole sectors, the last one filled up with zeros. -/
def sectorsOf (data : Bytes) : List Sector :=
  (Pieces.chunks sectorSize data).map (Block.fit 0 sectorSize)

/-- The byte in the last sector at which bytes end, zero at its end. -/
def eofOf (data : Bytes) : UInt8 := UInt8.ofNat (data.length % sectorSize)

/-- A payload as the contents of a file. -/
def contentsOf (f : FileFormat) (data : Bytes) : Except VolumeError Contents :=
  match f with
  | .program => .ok ⟨sectorsOf data, eofOf data, 0, 0⟩
  | .records r => do
    let records ← (Payload.split f data).mapError (.paddedLine ·.line)
    let encoded ← (r.encode records).mapError .record
    match r.content, r.family with
    | .internal, .fixed =>
      return ⟨encoded.sectors, UInt8.ofNat (data.length % r.length), encoded.count, 0⟩
    | .internal, .variable => return ⟨encoded.sectors, encoded.eof, encoded.count, 0⟩
    | .display, _ =>
      let unterminated := data.getLast?.any (· != Payload.lineFeed)
      return ⟨encoded.sectors, encoded.eof, encoded.count,
        if unterminated then Descriptor.unterminatedFlag else 0⟩

/-- Adds a file with a payload. -/
def add (d : Disk) (name : String) (data : Bytes) (f : FileFormat) : Change :=
  .ofExcept d do d.addFile name f (← contentsOf f data)

/-- Adds a file of records. -/
def addRecords (d : Disk) (name : String) (records : List Bytes) (f : FileFormat) : Change :=
  .ofExcept d do
    let encoded ← (f.encode records).mapError .record
    d.addFile name f ⟨encoded.sectors, encoded.eof, encoded.count, 0⟩

/-- Adds a file of raw sectors with a count of the caller's choice, which need not agree. -/
def addSpecial (d : Disk) (name : String) (raw : Bytes) (f : FileFormat) (count : UInt16) :
    Change :=
  .ofExcept d (d.addFile name f ⟨sectorsOf raw, eofOf raw, count, 0⟩)

/-- Deletes a file that is not protected, and frees its sectors. -/
def delete (d : Disk) (name : String) : Change :=
  .ofExcept d do
    let e ← d.find name
    if e.file.isProtected then .error (.fileProtected name)
    else
      let map := (e.sector :: e.file.sectors).foldl (fun m s => m.mark s false) d.bitmap
      let files := (← d.entries).filter (·.sector != e.sector)
      return (d.putIndex files).putBitmap map

/-- Gives a file another name. -/
def rename (d : Disk) (old new : String) : Change :=
  match packName new with
  | none => .refused d (.badName new)
  | some field =>
    match d.find old with
    | .error e => .refused d e
    | .ok e =>
      if old ≠ new ∧ (d.find new).isOk then .refused d (.nameConflict new)
      else
        let d := d.putDescriptor e.sector { e.file with name := field }
        match d.entries with
        | .error e => .refused d e
        | .ok files => ⟨d.putIndex files, none⟩

/-- Sets or takes off the protection of a file. -/
def protect (d : Disk) (name : String) (on : Bool) : Change :=
  .ofExcept d do
    let e ← d.find name
    let flags :=
      if on then e.file.flags ||| Descriptor.protectedFlag
      else e.file.flags &&& ~~~Descriptor.protectedFlag
    return d.putDescriptor e.sector { e.file with flags := flags }

end Disk

end TiBench.Volume
