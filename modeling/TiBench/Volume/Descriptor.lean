import TiBench.FileFormat
import TiBench.Timestamp
import TiBench.Volume.Name
import TiBench.Volume.Cluster

/-!
# File descriptor records

The sector that describes a file: its name, format, counts, timestamps and clusters. Words are
big endian, except the record count.
-/

namespace TiBench.Volume

/-- What a descriptor record says of a file. -/
structure Descriptor where
  name : Block nameSize
  extendedLength : UInt16
  flags : UInt8
  perSector : UInt8
  dataSectors : UInt16
  eof : UInt8
  recordLength : UInt8
  /-- The number of records, or of sectors for records of varying length. -/
  count : UInt16
  created : Block 4
  updated : Block 4
  clusters : Block Cluster.listSize
deriving DecidableEq

namespace Descriptor

/-- Marks a program. -/
def programFlag : UInt8 := 0x01

/-- Marks internal records. -/
def internalFlag : UInt8 := 0x02

/-- Marks a display file whose payload did not end in a line feed. -/
def unterminatedFlag : UInt8 := 0x04

/-- Marks a file that must not be deleted. -/
def protectedFlag : UInt8 := 0x08

/-- Marks records of varying length. -/
def variableFlag : UInt8 := 0x80

/-- Where the two timestamps stand in a descriptor record. -/
def timestampOffset : Nat := 0x14

/-- The bytes of the two timestamps. -/
def timestampSize : Nat := 8

/-- What a sector says when it is read as a descriptor record. -/
def ofSector (s : Sector) : Descriptor where
  name := s.slice 0 10
  extendedLength := s.wordBE 10
  flags := s.byte 12
  perSector := s.byte 13
  dataSectors := s.wordBE 14
  eof := s.byte 16
  recordLength := s.byte 17
  count := s.wordLE 18
  created := s.slice 20 4
  updated := s.slice 24 4
  clusters := s.slice 28 228

/-- The sector that says this of a file. -/
def toSector (d : Descriptor) : Sector where
  bytes := d.name.bytes ++ Bytes.ofWordBE d.extendedLength ++ [d.flags, d.perSector]
    ++ Bytes.ofWordBE d.dataSectors ++ [d.eof, d.recordLength] ++ Bytes.ofWordLE d.count
    ++ d.created.bytes ++ d.updated.bytes ++ d.clusters.bytes
  length_eq := by
    simp [Bytes.ofWordBE, Bytes.ofWordLE, Block.length_eq, nameSize, Cluster.listSize,
      Cluster.maxCount, sectorSize]

/-- The flags of a format. -/
def formatFlags : FileFormat → UInt8
  | .program => programFlag
  | .records f =>
    (match f.content with
      | .internal => internalFlag
      | .display => 0)
    ||| (match f.family with
      | .variable => variableFlag
      | .fixed => 0)

/-- The descriptor of an empty file. -/
def new (name : Block nameSize) (f : FileFormat) : Descriptor where
  name := name
  extendedLength := 0
  flags := formatFlags f
  perSector := UInt8.ofNat f.perSector
  dataSectors := 0
  eof := 0
  recordLength := UInt8.ofNat f.recordLength
  count := 0
  created := Block.zero 4
  updated := Block.zero 4
  clusters := Block.zero Cluster.listSize

/-- Whether a flag is set. -/
def has (d : Descriptor) (flag : UInt8) : Bool := d.flags &&& flag != 0

/-- The format that flags and record length give, if the length is one of the family's. -/
def format? (d : Descriptor) : Option FileFormat :=
  if d.has programFlag then some .program
  else
    let content := if d.has internalFlag then Content.internal else Content.display
    let family := if d.has variableFlag then Family.variable else Family.fixed
    (RecordFormat.make content family d.recordLength.toNat).toOption.map .records

/-- Whether the file must not be deleted. -/
def isProtected (d : Descriptor) : Bool := d.has protectedFlag

/-- The name of the file. -/
def fileName (d : Descriptor) : String := unpackName d.name.bytes

/-- The data sectors of the file in order. -/
def sectors (d : Descriptor) : List Nat :=
  (Cluster.sectors (Cluster.unpack d.clusters.bytes)).take d.dataSectors.toNat

end Descriptor

end TiBench.Volume
