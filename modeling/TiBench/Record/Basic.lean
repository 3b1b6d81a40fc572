import TiBench.Bytes

/-!
# Records

What the two families of records have in common: why records cannot be stored or read, and what
storing them gives.
-/

namespace TiBench

/-- Why records cannot be stored, or a record cannot be read. Records count from zero. -/
inductive RecordError where
  /-- A stored length byte exceeds the maximum of the format. -/
  | badLength (index length max : Nat)
  /-- A record is longer than the format allows. -/
  | tooLong (index length : Nat)
  /-- A record reaches past the bytes that are there. -/
  | overrun (index : Nat)
  /-- The count of a file's records or sectors does not fit its word. -/
  | tooMany (count : Nat)
  /-- A program has no records. -/
  | notRecords
deriving DecidableEq, Repr

/-- The wording of an error. -/
def RecordError.message : RecordError → String
  | .badLength index length max =>
    s!"record {index} has length byte {length}, maximum is {max}"
  | .tooLong index length => s!"record {index} of length {length} does not fit the format"
  | .overrun index => s!"record {index} runs past the end of its sector"
  | .tooMany count => s!"{count} records or sectors exceed the 16 bit FDR count"
  | .notRecords => "program files do not hold records"

namespace Record

/-- Sectors of records, with what a descriptor says of them: where the last sector ends, zero if
all its slots are counted, and the number of records, or of sectors for records of varying
length. -/
structure Encoded where
  sectors : List Sector
  eof : UInt8
  count : UInt16
deriving DecidableEq

/-- A count as a word. -/
def countWord (n : Nat) : Except RecordError UInt16 :=
  if n < 65536 then .ok (UInt16.ofNat n) else .error (.tooMany n)

/-- The first record longer than `max`, if there is one, is refused. -/
def checkLengths (max : Nat) (records : List Bytes) : Except RecordError Unit :=
  match (records.map List.length).zipIdx.find? (fun r => max < r.1) with
  | some (length, index) => .error (.tooLong index length)
  | none => .ok ()

/-- All the records, or the first error. -/
def collect (decoded : List (Except RecordError Bytes)) : Except RecordError (List Bytes) :=
  decoded.mapM id

end Record

end TiBench
