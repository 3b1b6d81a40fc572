import TiBench.Bytes
import TiBench.Text.Utf8

/-!
# Descriptor index

Sector one of a volume: the sectors of the descriptor records, in the order of the files' names,
with a zero word after the last.
-/

namespace TiBench.Volume.Index

/-- The greatest number of files on a volume. -/
def maxFiles : Nat := 127

/-- The sectors that an index lists, up to the first zero word. -/
def pointers (s : Bytes) : List Nat :=
  (((Bytes.wordsBE s).take maxFiles).takeWhile (· != 0)).map UInt16.toNat

/-- Whether a name comes before another one or is the same, by the bytes of their UTF-8 form. -/
def nameLE (a b : String) : Bool := decide (Text.utf8 a ≤ Text.utf8 b)

/-- Names with their sectors in the order of the names; equal names keep their order. -/
def sort (files : List (String × Nat)) : List (String × Nat) :=
  files.mergeSort fun a b => nameLE a.1 b.1

/-- The index of files that are in order already. Files past the last place are left out. -/
def sector (files : List (String × Nat)) : Sector :=
  Block.fit 0 sectorSize ((files.take maxFiles).flatMap fun f => Bytes.ofWordBE (UInt16.ofNat f.2))

/-- The index of files in any order. -/
def build (files : List (String × Nat)) : Sector := sector (sort files)

end TiBench.Volume.Index
