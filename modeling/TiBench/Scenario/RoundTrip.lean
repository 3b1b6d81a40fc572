import TiBench.Compare.Binary
import TiBench.Sample.ChunkPlan
import TiBench.Sample.TestVector
import TiBench.Scenario.Script

/-!
# Round trips

A payload goes through a tool, and back through its inverse if there is one; what comes out must be
the payload, but for a mask and a few bytes more at the end.
-/

namespace TiBench

open TiBench.Sample (ChunkPlan TestVector)

/-- A scenario that sends a payload there and back. -/
structure RoundTrip where
  name : String
  vector : TestVector
  forward : Step
  inverse? : Option Step
  mask : Compare.Mask
  tolerance : Nat

namespace RoundTrip

/-- The round trip of a test vector without a mask. -/
def ofVector (vector : TestVector) (forward : Step) (inverse? : Option Step) (tolerance : Nat) :
    RoundTrip :=
  ⟨vector.name, vector, forward, inverse?, .empty, tolerance⟩

/-- A round trip for each chunk of a plan. -/
def exhaustive (plan : ChunkPlan) (forward inverse : Step) (tolerance : Nat) : List RoundTrip :=
  plan.chunks.map fun c =>
    let name := "chunk " ++ Text.zeroPadded 4 c.index ++ " words " ++ Text.hex 4 c.first ++ ".."
      ++ Text.hex 4 (c.stop - 1)
    ofVector (.ofImage name c.image) forward (some inverse) tolerance

/-- A round trip for each of `runs` random blocks, run `i` with the seed `i`. -/
def random (runs size : Nat) (base : UInt16) (forward inverse : Step) (tolerance : Nat) :
    List RoundTrip :=
  (List.range runs).map fun i =>
    ofVector (.ofImage s!"random seed {i} size {size}" (Sample.randomBlock (.ofNat i) size base))
      forward (some inverse) tolerance

/-- The variables of a step that reads one file and writes another. -/
def vars (t : RoundTrip) (input output : String) : Variables :=
  [("in", Workspace.fileText input), ("out", Workspace.fileText output),
    ("base", Text.hex 4 t.vector.base.toNat)]

/-- Brings the payload to the forward step. -/
def prepare (t : RoundTrip) : Script Unit := do
  Script.enter .generate
  Script.writeFile "write payload" "input.bin" t.vector.payload
  Script.enter .invoke

/-- Brings the result of the forward step to the inverse one, if it is not there already. -/
def bring (t : RoundTrip) (there : Bytes) : Script Unit := do
  Script.enter .invokeInverse
  if !t.forward.writesFile then Script.writeFile "write intermediate" "stage1.out" there

/-- The result of the inverse step on the result of the forward one. -/
def back (t : RoundTrip) (inverse : Step) (there : Bytes) : Script Bytes := do
  t.bring there
  Script.send inverse (t.vars "stage1.out" "result.bin") "result.bin"

/-- What comes out must be the payload. -/
def finish (t : RoundTrip) (result : Bytes) : Script Unit := do
  Script.enter .compare
  Script.require "binary compare" t.name Compare.CompareError.message
    (Compare.compareBytes t.vector.payload result t.mask t.tolerance)

/-- What is done between setup and teardown. -/
def script (t : RoundTrip) : Script Unit := do
  t.prepare
  let there ← Script.send t.forward (t.vars "input.bin" "stage1.out") "stage1.out"
  let result ← match t.inverse? with
    | some inverse => t.back inverse there
    | none => pure there
  t.finish result

/-- The phases between setup and teardown. -/
def stage (t : RoundTrip) (faults : List String) : Stage Unit := t.script.toStage faults

end RoundTrip

end TiBench
