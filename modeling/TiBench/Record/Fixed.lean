import TiBench.FileFormat
import TiBench.Record.Basic

/-!
# Records of one length

A sector is divided into slots of the record length, as many as fit, 255 at most. The rest of the
sector is zero.
-/

namespace TiBench.Record.Fixed

/-- The number of slots in a sector. -/
def slots (length : Nat) : Nat := min 255 (sectorSize / length)

/-- A sector of at most `slots length` records. -/
def sector (length : Nat) (pad : Padding) (records : List Bytes) : Sector :=
  Block.fit 0 sectorSize (records.flatMap (Bytes.fit pad.byte length))

/-- Records, none longer than `length`, in slots of that length. -/
def encode (length : Nat) (pad : Padding) (records : List Bytes) : Except RecordError Encoded := do
  let count ← countWord records.length
  checkLengths length records
  return ⟨(Pieces.chunks (slots length) records).map (sector length pad), 0, count⟩

/-- What a slot holds: space padding is taken off, zero padding is kept. -/
def unpad : Padding → Bytes → Bytes
  | .space, slot => Pieces.dropEndWhile (· == Padding.space.byte) slot
  | .zero, slot => slot

/-- The record in slot `index` of the file, if its sector reaches that far. -/
def read (length : Nat) (pad : Padding) (sectors : Array Bytes) (index : Nat) :
    Except RecordError Bytes :=
  let slot := (sectors[index / slots length]?).map fun sec =>
    (sec.drop (index % slots length * length)).take length
  match slot with
  | some slot => if slot.length = length then .ok (unpad pad slot) else .error (.overrun index)
  | none => .error (.overrun index)

/-- The first `count` records of a file. -/
def decode (length : Nat) (pad : Padding) (count : Nat) (sectors : List Bytes) :
    List (Except RecordError Bytes) :=
  let sectors := sectors.toArray
  (List.range count).map (read length pad sectors)

end TiBench.Record.Fixed
