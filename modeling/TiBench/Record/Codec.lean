import TiBench.Record.Fixed
import TiBench.Record.Variable

/-!
# Records of any format

Storing and reading records as a format says.
-/

namespace TiBench

namespace RecordFormat

/-- Records as sectors. -/
def encode (f : RecordFormat) (records : List Bytes) : Except RecordError Record.Encoded :=
  match f.family with
  | .fixed => Record.Fixed.encode f.length f.padding records
  | .variable => Record.Variable.encode f.length records

/-- The records of sectors, given the count that a descriptor keeps. -/
def decode (f : RecordFormat) (count : Nat) (sectors : List Bytes) :
    List (Except RecordError Bytes) :=
  match f.family with
  | .fixed => Record.Fixed.decode f.length f.padding count sectors
  | .variable => Record.Variable.decode f.length (sectors.take count)

end RecordFormat

namespace FileFormat

/-- Records as sectors. A program takes none. -/
def encode (f : FileFormat) (records : List Bytes) : Except RecordError Record.Encoded :=
  match f with
  | .program => .error .notRecords
  | .records f => f.encode records

/-- The records of sectors, given the count that a descriptor keeps. A program has none. -/
def decode (f : FileFormat) (count : Nat) (sectors : List Bytes) :
    Except RecordError (List (Except RecordError Bytes)) :=
  match f with
  | .program => .error .notRecords
  | .records f => .ok (f.decode count sectors)

end FileFormat

end TiBench
