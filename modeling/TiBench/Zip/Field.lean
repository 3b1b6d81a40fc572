import TiBench.Bytes

/-!
# Fields of archives

An archive consists of records. Each begins with a mark of four bytes; the numbers in it are little
endian.
-/

namespace TiBench.Zip

/-- A number in `n` bytes, the low one first. -/
def little : (n : Nat) → Nat → Bytes
  | 0, _ => []
  | n + 1, value => UInt8.ofNat value :: little n (value / 256)

/-- The number in bytes, the low one first. -/
def ofLittle (b : Bytes) : Nat := b.foldr (fun b n => b.toNat + 256 * n) 0

/-- The number in `n` bytes at an offset, if the bytes are there. -/
def number? (b : Bytes) (offset n : Nat) : Option Nat :=
  let field := (b.drop offset).take n
  if field.length = n then some (ofLittle field) else none

/-- The mark of a kind of record. -/
def mark (kind version : UInt8) : Bytes := [0x50, 0x4b, kind, version]

/-- Before the content of an entry. -/
def entryMark : Bytes := mark 3 4

/-- Before what the directory says of an entry. -/
def listedMark : Bytes := mark 1 2

/-- At the end of an archive. -/
def endMark : Bytes := mark 5 6

/-- The places, in ascending order and counted from `offset`, where `m` stands in `b`. -/
def places (m : Bytes) (offset : Nat) (b : Bytes) : List Nat :=
  (b.foldr (fun c (acc : Nat × Bytes × List Nat) =>
    let (n, tail, found) := acc
    let here := (c :: tail).take m.length
    (n - 1, here, if here = m then (offset + n - 1) :: found else found))
    (b.length, [], [])).2.2

/-- The places, in ascending order, where `m` stands in `b` from `first` on and before `stop`. -/
def placesWithin (m : Bytes) (first stop : Nat) (b : Bytes) : List Nat :=
  places m first ((b.take stop).drop first)

end TiBench.Zip
