import TiBench.Bytes

/-!
# Clusters

A file's data sectors as runs of neighbours. A cluster gives the first sector of a run and the
place in the file of its last one, twelve bits each, in three bytes.
-/

namespace TiBench.Volume

/-- A run of neighbouring sectors. -/
structure Cluster where
  start : Nat
  /-- The place in the file, counted from zero, of the last sector of the run. -/
  last : Nat
deriving DecidableEq, Repr

namespace Cluster

/-- The greatest number of clusters in a descriptor. -/
def maxCount : Nat := 76

/-- The bytes of a cluster list in a descriptor. -/
def listSize : Nat := 3 * maxCount

/-- The maximal runs of ascending neighbours: the first sector of each, and its length. -/
def runs : List Nat → List (Nat × Nat)
  | [] => []
  | s :: rest =>
    match runs rest with
    | (t, length) :: more =>
      if s + 1 = t then (s, length + 1) :: more else (s, 1) :: (t, length) :: more
    | [] => [(s, 1)]

/-- Runs as clusters, `done` sectors of the file lying before them. -/
def ofRuns (done : Nat) : List (Nat × Nat) → List Cluster
  | [] => []
  | (start, length) :: more => ⟨start, done + length - 1⟩ :: ofRuns (done + length) more

/-- The sectors of a file as clusters. -/
def ofSectors (sectors : List Nat) : List Cluster := ofRuns 0 (runs sectors)

/-- The sectors of clusters, `done` sectors of the file lying before them. -/
def sectorsAfter (done : Nat) : List Cluster → List Nat
  | [] => []
  | c :: more => List.range' c.start (c.last + 1 - done) ++ sectorsAfter (c.last + 1) more

/-- The sectors of a file in order. -/
def sectors (clusters : List Cluster) : List Nat := sectorsAfter 0 clusters

/-- A cluster in three bytes: twelve bits of the start, then twelve bits of the last place. -/
def bytes (c : Cluster) : Bytes :=
  [UInt8.ofNat c.start, UInt8.ofNat (c.start / 256 % 16 + c.last % 16 * 16),
    UInt8.ofNat (c.last / 16)]

/-- The cluster in three bytes. -/
def ofBytes (b0 b1 b2 : UInt8) : Cluster :=
  ⟨b0.toNat + b1.toNat % 16 * 256, b1.toNat / 16 + b2.toNat * 16⟩

/-- A list of clusters as a descriptor stores it. Clusters past the last place are left out. -/
def pack (clusters : List Cluster) : Block listSize :=
  Block.fit 0 listSize ((clusters.take maxCount).flatMap bytes)

/-- The clusters of a stored list, up to the first that starts at sector zero. -/
def unpack : Bytes → List Cluster
  | b0 :: b1 :: b2 :: rest =>
    let c := ofBytes b0 b1 b2
    if c.start = 0 then [] else c :: unpack rest
  | _ => []

end Cluster

end TiBench.Volume
