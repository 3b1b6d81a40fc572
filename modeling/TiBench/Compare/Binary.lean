import TiBench.Compare.Error
import TiBench.Compare.Mask
import TiBench.Text.Dump

/-!
# Comparing bytes

Two byte strings match outside a mask. The second one may be longer by a tolerance; what it has
more is not looked at.
-/

namespace TiBench.Compare

/-- A place where two byte strings differ. -/
structure Difference where
  offset : Nat
  expected : UInt8
  actual : UInt8
deriving DecidableEq, Repr

/-- The first difference outside the mask, the first bytes standing at `offset`, up to the end of
the shorter string. -/
def firstDifference? (m : Mask) (offset : Nat) : Bytes → Bytes → Option Difference
  | a :: as, b :: bs =>
    if a = b ∨ m.contains offset then firstDifference? m (offset + 1) as bs
    else some ⟨offset, a, b⟩
  | _, _ => none

/-- Succeeds if `result` matches `reference`. -/
def compareBytes (reference result : Bytes) (m : Mask) (tolerance : Nat) :
    Except CompareError Unit :=
  let size := reference.length
  let resultSize := result.length
  if resultSize < size ∨ tolerance < resultSize - size then
    .error (.lengthMismatch size resultSize tolerance)
  else match firstDifference? m 0 reference result with
    | none => .ok ()
    | some d =>
      .error (.mismatch d.offset d.expected d.actual (Text.hexWindow reference d.offset)
        (Text.hexWindow result d.offset))

end TiBench.Compare
