import TiBench.Zip.Field

/-!
# End records

The record at the end of an archive says how many entries there are and where the directory is. If
its numbers are too small for that, a locator before it says where a wide record is, which says it
with more bits. Something may stand before an archive: offsets in it then count from where it really
starts, which is known from where the directory, or the wide record, is found.
-/

namespace TiBench.Zip

/-- Where a directory is. -/
structure Extent where
  /-- What has to be added to the offsets of entries. -/
  base : Nat
  start : Nat
  count : Nat

/-- The record at the end of an archive. -/
structure EndRecord where
  place : Nat
  disk : Nat
  directoryDisk : Nat
  /-- The number of entries on the last disk. -/
  countHere : Nat
  count : Nat
  offset : Nat

/-- What says where the wide record is. -/
structure Locator where
  place : Nat
  directoryDisk : Nat
  offset : Nat
  disks : Nat

/-- The end record with wide numbers. -/
structure WideRecord where
  place : Nat
  size : Nat
  writtenBy : Nat
  neededBy : Nat
  disk : Nat
  directoryDisk : Nat
  /-- The number of entries on the last disk. -/
  countHere : Nat
  count : Nat
  offset : Nat

/-- The locator that ends where the end record begins. -/
def Locator.read? (archive : Bytes) (stop : Nat) : Option Locator := do
  guard (20 ≤ stop)
  let record := archive.drop (stop - 20)
  guard (record.take 4 = mark 6 7)
  return ⟨stop - 20, ← number? record 4 4, ← number? record 8 8, ← number? record 16 4⟩

/-- The wide record at a place. -/
def WideRecord.read? (archive : Bytes) (place : Nat) : Option WideRecord := do
  let record := archive.drop place
  return ⟨place, ← number? record 4 8, ← number? record 12 2, ← number? record 14 2,
    ← number? record 16 4, ← number? record 20 4, ← number? record 24 8, ← number? record 32 8,
    ← number? record 48 8⟩

namespace WideRecord

/-- Whether the record agrees with its locator: it ends where that begins, and has room for its
directory before it. -/
def fits (l : Locator) (w : WideRecord) : Bool :=
  44 ≤ w.size ∧ w.place + 12 + w.size = l.place ∧ w.directoryDisk = l.directoryDisk
    ∧ w.offset + 46 * w.count ≤ w.place

/-- Where the directory is by the first record that agrees with its locator. -/
def extent? (archive : Bytes) (l : Locator) : Option Extent := do
  guard (l.offset < l.place ∧ l.disks ≤ 1)
  let places := placesWithin (mark 6 6) l.offset l.place archive
  let w ← (places.filterMap (read? archive)).find? (fits l)
  guard (w.countHere ≤ w.count ∧ w.neededBy ≤ w.writtenBy ∧ w.disk = w.directoryDisk)
  let base := w.place - l.offset
  return ⟨base, w.offset + base, w.count⟩

end WideRecord

namespace EndRecord

/-- The end record at a place. A comment follows it. -/
def read? (archive : Bytes) (place : Nat) : Option EndRecord := do
  let record := archive.drop place
  let commentSize ← number? record 20 2
  guard (22 + commentSize ≤ record.length)
  return ⟨place, ← number? record 4 2, ← number? record 6 2, ← number? record 8 2,
    ← number? record 10 2, ← number? record 16 4⟩

/-- The locator before an end record that calls for one. -/
def locator? (archive : Bytes) (r : EndRecord) : Option Locator :=
  if r.count = 0xffff ∨ r.offset = 0xffffffff then Locator.read? archive r.place else none

/-- Where the directory is by the end record alone: at the first mark from its offset on, or right
before the record if there are no entries. -/
def shortExtent? (archive : Bytes) (r : EndRecord) : Option Extent := do
  guard (r.disk = r.directoryDisk)
  let start ← if r.count = 0 then some (max r.place r.offset)
    else (placesWithin listedMark r.offset r.place archive).head?
  return ⟨start - r.offset, start, r.countHere⟩

/-- Where the directory is. -/
def extent? (archive : Bytes) (r : EndRecord) : Option Extent :=
  match r.locator? archive with
  | some l => WideRecord.extent? archive l
  | none => r.shortExtent? archive

end EndRecord

end TiBench.Zip
