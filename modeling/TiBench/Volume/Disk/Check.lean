import TiBench.Volume.Disk.Basic

/-!
# Checking a disk

The sectors that the structures of a volume own, against the sectors that its bitmap marks.
-/

namespace TiBench.Volume

/-- A sector on which ownership and bitmap disagree. -/
inductive Problem where
  /-- More than one structure owns the sector. -/
  | doubleAllocation (sector : Nat)
  /-- A structure owns the sector, but it is marked free. -/
  | unallocated (sector : Nat)
  /-- No structure owns the sector, but it is marked as used. -/
  | leaked (sector : Nat)
deriving DecidableEq, Repr

/-- The wording of a problem. -/
def Problem.message : Problem → String
  | .doubleAllocation sector => s!"sector {sector} is allocated twice"
  | .unallocated sector => s!"sector {sector} is in use but marked free"
  | .leaked sector => s!"sector {sector} is marked used but not owned"

namespace Disk

/-- The sectors that a file owns: its descriptor record and its data. All lie on the volume, or the
file is damaged. -/
def ownedBy (d : Disk) (e : Entry) : Except VolumeError (List Nat) :=
  if e.file.sectors.all (· < d.total) then .ok (e.sector :: e.file.sectors)
  else .error (.damaged (.data e.file.fileName))

/-- The sectors that the information block, the index and the files own, with repetitions. -/
def owned (d : Disk) : Except VolumeError (List Nat) := do
  return infoSector :: indexSector :: (← (← d.entries).mapM d.ownedBy).flatten

/-- What is wrong with a sector that has this many owners. -/
def problemAt (sector owners : Nat) (used : Bool) : Option Problem :=
  if 1 < owners then some (.doubleAllocation sector)
  else if owners = 1 ∧ !used then some (.unallocated sector)
  else if owners = 0 ∧ used then some (.leaked sector)
  else none

/-- Every sector on which ownership and bitmap disagree, in ascending order. -/
def check (d : Disk) : Except VolumeError (List Problem) := do
  let owned ← d.owned
  return (List.range d.total).filterMap fun s => problemAt s (owned.count s) (d.bitmap.isUsed s)

end Disk

end TiBench.Volume
