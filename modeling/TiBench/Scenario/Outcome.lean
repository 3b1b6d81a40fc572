/-!
# Outcomes

The phases that a scenario goes through, and how it ends: passed, or failed at the first check that
was violated.
-/

namespace TiBench

/-- A phase of a scenario. The last two are its ends. -/
inductive Phase where
  | setup
  | generate
  | invoke
  | invokeInverse
  | compare
  | diagnose
  | teardown
  | passed
  | failed
deriving DecidableEq, Repr

/-- The name of a phase. -/
def Phase.text : Phase → String
  | .setup => "setup"
  | .generate => "generate"
  | .invoke => "invoke"
  | .invokeInverse => "invoke inverse"
  | .compare => "compare"
  | .diagnose => "diagnose"
  | .teardown => "teardown"
  | .passed => "passed"
  | .failed => "failed"

/-- A violated check: its phase, what was checked, on what, and what was found. -/
structure Failure where
  phase : Phase
  check : String
  artifact : String
  detail : String
deriving DecidableEq, Repr

/-- The wording of a failure. -/
def Failure.text (f : Failure) : String :=
  f.check ++ " failed in " ++ f.phase.text ++ " phase on `" ++ f.artifact ++ "`: " ++ f.detail

/-- How a scenario ended. -/
structure Outcome where
  name : String
  phase : Phase
  /-- The phases entered, in order. -/
  trace : List Phase
  failure? : Option Failure
deriving DecidableEq, Repr

namespace Outcome

/-- Whether the scenario passed. -/
def hasPassed (o : Outcome) : Bool := o.phase == .passed

/-- A line for the scenario, and another one for its failure. -/
def text (o : Outcome) : String :=
  match o.failure? with
  | none => "PASS " ++ o.name
  | some f => "FAIL " ++ o.name ++ "\n    " ++ f.text

/-- The numbers of scenarios that passed and that failed. -/
def tally (outcomes : List Outcome) : Nat × Nat :=
  let passed := outcomes.countP hasPassed
  (passed, outcomes.length - passed)

end Outcome

end TiBench
