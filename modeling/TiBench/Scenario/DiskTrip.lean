import TiBench.Compare.Binary
import TiBench.Scenario.Script
import TiBench.Volume.Disk.Check
import TiBench.Volume.Disk.Write

/-!
# Disk trips

A file goes between the disks of this library and those of a tool: the tool takes a file from a
disk made here, or it adds a file to a disk that is read here.
-/

namespace TiBench

open TiBench.Volume (Disk VolumeError)

/-- What the tool does. -/
inductive Direction where
  | extracts
  | adds
deriving DecidableEq, Repr

/-- A scenario that sends a file by way of a disk. -/
structure DiskTrip where
  name : String
  /-- The image to which the file is added. -/
  template : Bytes
  file : String
  payload : Bytes
  format : FileFormat
  step : Step
  direction : Direction
  /-- Whether an image that the tool leaves must be the one that this library leaves, but for
  timestamps. -/
  comparesImage : Bool

namespace DiskTrip

/-- The disk with the file, as this library makes it. -/
def reference (t : DiskTrip) (clock : Timestamp) : Script Disk := do
  let d ← Script.require "template" "disk.dsk" VolumeError.message (Disk.ofBytes clock t.template)
  let change := d.add t.file t.payload t.format
  match change.error? with
  | some e => Script.fail "add file" t.file e.message
  | none => pure change.disk

/-- What comes out must be the payload. -/
def checkPayload (t : DiskTrip) (result : Bytes) : Script Unit :=
  Script.require "file content" t.file Compare.CompareError.message
    (Compare.compareBytes t.payload result .empty 0)

/-! ## Taking the file -/

/-- The variables of a step that takes a file. -/
def extractVars (t : DiskTrip) : Variables :=
  [("disk", Workspace.fileText "disk.dsk"), ("name", t.file),
    ("out", Workspace.fileText "extracted.out")]

/-- Checks what the tool took from the disk. -/
def finishExtract (t : DiskTrip) (result : Bytes) : Script Unit := do
  Script.enter .compare
  t.checkPayload result

/-- What is done if the tool takes the file from a disk. -/
def extractScript (t : DiskTrip) (clock : Timestamp) : Script Unit := do
  Script.enter .generate
  let d ← t.reference clock
  Script.writeFile "write image" "disk.dsk" d.toBytes
  Script.enter .invoke
  let result ← Script.send t.step t.extractVars "extracted.out"
  t.finishExtract result

/-! ## Adding the file -/

/-- The image must be that of a sound disk. -/
def soundDisk (clock : Timestamp) (image : Bytes) : Script Disk := do
  let d ← Script.require "image structure" "disk.dsk" VolumeError.message (Disk.ofBytes clock image)
  let problems ← Script.require "image structure" "disk.dsk" VolumeError.message d.check
  match problems with
  | [] => pure d
  | p :: _ => Script.fail "allocation bitmap" "disk.dsk" p.message

/-- The disk must hold the file, in its format and with its payload. -/
def checkFile (t : DiskTrip) (d : Disk) : Script Unit := do
  let f ← Script.require "catalog" t.file VolumeError.message (d.formatOf t.file)
  if f ≠ t.format then
    Script.fail "file format" t.file ("expected " ++ t.format.text ++ ", found " ++ f.text)
  else
    let result ← Script.require "extract" t.file VolumeError.message (d.extract t.file)
    t.checkPayload result

/-- The image must be that of the reference disk outside the timestamps of both. -/
def checkImage (t : DiskTrip) (clock : Timestamp) (d : Disk) (image : Bytes) : Script Unit := do
  let reference ← t.reference clock
  let mask ← Script.require "standardize" "disk.dsk" VolumeError.message reference.standardize
  let other ← Script.require "standardize" "disk.dsk" VolumeError.message d.standardize
  Script.require "image compare" "disk.dsk" Compare.CompareError.message
    (Compare.compareBytes reference.toBytes image (mask.merge other) 0)

/-- All that is checked on an image. -/
def inspect (t : DiskTrip) (clock : Timestamp) (image : Bytes) : Script Unit := do
  let d ← soundDisk clock image
  t.checkFile d
  if t.comparesImage then t.checkImage clock d image

/-- The variables of a step that adds a file. -/
def addVars (t : DiskTrip) : Variables :=
  [("disk", Workspace.fileText "disk.dsk"), ("name", t.file),
    ("in", Workspace.fileText "payload.in"), ("format", t.format.text)]

/-- Brings the image and the payload to the tool. -/
def prepareAdd (t : DiskTrip) : Script Unit := do
  Script.enter .generate
  Script.writeFile "write image" "disk.dsk" t.template
  Script.writeFile "write payload" "payload.in" t.payload
  Script.enter .invoke

/-- Checks the image that the tool left. -/
def finishAdd (t : DiskTrip) (clock : Timestamp) : Script Unit := do
  Script.enter .compare
  let image ← Script.readFile "read image" "disk.dsk"
  t.inspect clock image

/-- What is done if the tool adds the file to a disk. -/
def addScript (t : DiskTrip) (clock : Timestamp) : Script Unit := do
  t.prepareAdd
  let _ ← Script.invoke t.step t.addVars .success
  t.finishAdd clock

/-! ## Both directions -/

/-- What is done between setup and teardown. -/
def script (t : DiskTrip) (clock : Timestamp) : Script Unit :=
  match t.direction with
  | .extracts => t.extractScript clock
  | .adds => t.addScript clock

/-- The phases between setup and teardown. -/
def stage (t : DiskTrip) (clock : Timestamp) (faults : List String) : Stage Unit :=
  (t.script clock).toStage faults

end DiskTrip

end TiBench
