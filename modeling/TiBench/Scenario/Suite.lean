import TiBench.Scenario.DiskTrip
import TiBench.Scenario.ErrorPath
import TiBench.Scenario.RoundTrip

/-!
# Suites

Scenarios of all kinds, run one after the other, each in a workspace of its own.
-/

namespace TiBench

/-- A scenario. -/
inductive Scenario where
  | roundTrip (t : RoundTrip)
  | errorPath (t : ErrorPath)
  | diskTrip (t : DiskTrip)

namespace Scenario

/-- The name of a scenario. -/
def name : Scenario → String
  | roundTrip t => t.name
  | errorPath t => t.vector.name
  | diskTrip t => t.name

/-- What is done between setup and teardown. -/
def script (clock : Timestamp) : Scenario → Script Unit
  | roundTrip t => t.script
  | errorPath t => t.script
  | diskTrip t => t.script clock

/-- The phases between setup and teardown. -/
def stage (clock : Timestamp) (faults : List String) (s : Scenario) : Stage Unit :=
  (s.script clock).toStage faults

/-- The outcome of a scenario. -/
def run (clock : Timestamp) (faults : List String) (s : Scenario) : Outcome :=
  Stage.outcome s.name (s.stage clock faults)

/-- The outcomes of scenarios in order. -/
def runAll (clock : Timestamp) (faults : List String) (scenarios : List Scenario) : List Outcome :=
  scenarios.map (run clock faults)

end Scenario

end TiBench
