import TiBench.Record.Basic

/-!
# Records of varying length

Each record is a length byte followed by its bytes. The byte after the last record of a sector is
the end byte, and the rest of the sector is zero. A record never spans two sectors.
-/

namespace TiBench.Record.Variable

/-- The byte after the last record of a sector. -/
def endByte : UInt8 := 0xff

/-- The greatest length that a length byte can give. -/
def maxLength : Nat := 254

/-- A record with its length byte. -/
def entry (record : Bytes) : Bytes := UInt8.ofNat record.length :: record

/-- The bytes that records take with their length bytes. -/
def size (records : List Bytes) : Nat := (records.flatMap entry).length

/-- Records given out to sectors from the first on: the sectors already full and the records of
the current one, both in reverse, and the bytes these take. -/
structure Packing where
  full : List (List Bytes)
  current : List Bytes
  used : Nat

namespace Packing

/-- No records yet. -/
def empty : Packing := ⟨[], [], 0⟩

/-- One record more, in the current sector if that leaves room for the end byte. -/
def push (p : Packing) (record : Bytes) : Packing :=
  if p.used + record.length + 2 ≤ sectorSize then
    { p with current := record :: p.current, used := p.used + record.length + 1 }
  else ⟨p.current.reverse :: p.full, [record], record.length + 1⟩

/-- The records of each sector, in order. -/
def groups (p : Packing) : List (List Bytes) :=
  (if p.current.isEmpty then p.full else p.current.reverse :: p.full).reverse

end Packing

/-- The records of each sector, each sector taking as many as fit before the next one starts. -/
def groups (records : List Bytes) : List (List Bytes) :=
  (records.foldl Packing.push Packing.empty).groups

/-- A sector of records. -/
def sector (records : List Bytes) : Sector :=
  Block.fit 0 sectorSize (records.flatMap entry ++ [endByte])

/-- Records, none longer than `max`, packed into as few sectors as they need. -/
def encode (max : Nat) (records : List Bytes) : Except RecordError Encoded := do
  checkLengths (min max maxLength) records
  let groups := groups records
  let count ← countWord groups.length
  return ⟨groups.map sector, UInt8.ofNat ((groups.getLast?.map size).getD 0), count⟩

/-- What stands in a sector behind a length byte. -/
inductive Entry where
  /-- The bytes that the length byte announces. -/
  | whole (record : Bytes)
  /-- A length byte that announces more bytes than there are. -/
  | cut
deriving DecidableEq

/-- The entries of a sector up to its end byte or its end. -/
def entries : Bytes → List Entry
  | [] => []
  | b :: rest =>
    if b = endByte then []
    else
      let record := rest.take b.toNat
      if record.length < b.toNat then [.cut]
      else .whole record :: entries (rest.drop b.toNat)
termination_by sec => sec.length
decreasing_by
  simp only [List.length_drop, List.length_cons]
  omega

/-- The record that an entry gives at its place in the file. -/
def resolve (max index : Nat) : Entry → Except RecordError Bytes
  | .whole record =>
    if max < record.length then .error (.badLength index record.length max) else .ok record
  | .cut => .error (.overrun index)

/-- The records of the sectors in order. A bad length byte spoils its own record only. -/
def decode (max : Nat) (sectors : List Bytes) : List (Except RecordError Bytes) :=
  (sectors.flatMap entries).mapIdx (resolve max)

end TiBench.Record.Variable
