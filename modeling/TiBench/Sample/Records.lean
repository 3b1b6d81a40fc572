import TiBench.Bytes

/-!
# Sample records

Records whose content shows where they belong: by index and length, of every length, and with a
checksum over their characters read as digits.
-/

namespace TiBench.Sample

/-- `count` records of one length. Record `i` is filled with the low byte of `i`, but its last byte
is the low byte of `length - i`. -/
def byLengthRecords (count length : Nat) : List Bytes :=
  (List.range count).map fun i =>
    if length = 0 then []
    else List.replicate (length - 1) (UInt8.ofNat i) ++ [UInt8.ofNat length - UInt8.ofNat i]

/-- A record of each length from one to `max`, with capital letters in turn. -/
def boundaryRecords (max : Nat) : List Bytes :=
  (List.range' 1 max).map fun length =>
    (List.range length).map fun j => UInt8.ofNat (0x41 + j % 26)

/-- The sum of the bytes as digits: each less the character zero. -/
def digitSum (record : Bytes) : Int := record.foldr (fun b n => (b.toNat : Int) - 0x30 + n) 0

/-- The number that divides the digit sum of a record with a right checksum. -/
def checksumModulus : Int := 80

/-- Whether the digit sum is divisible by the modulus. -/
def isChecksumOk (record : Bytes) : Bool := digitSum record % checksumModulus == 0

/-- A record of `length` bytes, one at least: a pattern of digits that depends on the index, and a
last byte that makes the checksum right. -/
def checksumRecord (index length : Nat) : Bytes :=
  let body := (List.range (length - 1)).map fun j => UInt8.ofNat (0x30 + sizeSum index (3 * j) % 10)
  let balance := (-digitSum body) % checksumModulus
  body ++ [UInt8.ofNat (0x30 + balance.toNat)]

/-- A record whose checksum is wrong, counted from zero. -/
structure ChecksumViolation where
  index : Nat
deriving DecidableEq, Repr

/-- The wording of the error. -/
def ChecksumViolation.message (v : ChecksumViolation) : String :=
  let index := v.index
  s!"record {index} violates the checksum law"

/-- The first record with a wrong checksum, if there is one, is reported. -/
def verifyChecksums (records : List Bytes) : Except ChecksumViolation Unit :=
  match records.findIdx? (fun r => !isChecksumOk r) with
  | some i => .error ⟨i⟩
  | none => .ok ()

end TiBench.Sample
