import TiBench.Sample.TestVector
import TiBench.Scenario.Script
import TiBench.Tool.Report

/-!
# Error paths

A tool is given a source text with errors in it. It must end with the expected class of exit code
and report what the markers in the text call for.
-/

namespace TiBench

open TiBench.Sample (TestVector MarkerStyle)

/-- A scenario that gives a tool a source text with markers. -/
structure ErrorPath where
  vector : TestVector
  /-- The name of the file with the text. -/
  file : String
  step : Step
  expect : ExitClass

namespace ErrorPath

/-- The scenario for a source text. -/
def ofSource (name file source : String) (style : MarkerStyle) (step : Step)
    (expect : ExitClass) : ErrorPath :=
  ⟨.ofSource name source style, file, step, expect⟩

/-- The variables of the step. -/
def vars (t : ErrorPath) : Variables :=
  [("in", Workspace.fileText t.file), ("out", Workspace.fileText "error.out"), ("name", t.file)]

/-- What is done between setup and teardown. -/
def script (t : ErrorPath) : Script Unit := do
  Script.enter .generate
  Script.writeFile "write fixture" t.file t.vector.payload
  Script.enter .invoke
  let out ← Script.invoke t.step t.vars t.expect
  Script.enter .diagnose
  Script.require "diagnostics" t.file Tool.MarkerMismatch.message
    (Tool.compareMarkers (Tool.Report.parse out.stderrText) t.vector.expected)

/-- The phases between setup and teardown. -/
def stage (t : ErrorPath) (faults : List String) : Stage Unit := t.script.toStage faults

end ErrorPath

end TiBench
