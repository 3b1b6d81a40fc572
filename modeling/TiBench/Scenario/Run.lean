import TiBench.Scenario.Outcome
import TiBench.Scenario.Step

/-!
# Running a scenario

What the kinds of scenario have in common: they enter phases, use files of the workspace and call
tools, and stop at the first check that fails. Setup comes before that and teardown after it in any
case.
-/

namespace TiBench

/-- Where the run of a scenario stands: the files of its workspace and the phases entered. -/
structure Run where
  files : FileTree
  trace : List Phase

/-- The phase entered last. -/
def Run.phase (r : Run) : Phase := r.trace.getLast?.getD .setup

/-- A part of a scenario, which changes the run and may stop it. -/
abbrev Stage (α : Type) := ExceptT Failure (StateM Run) α

namespace Stage

/-- Enters a phase. -/
def enter (p : Phase) : Stage Unit := modify fun r => { r with trace := r.trace ++ [p] }

/-- Stops the run because a check failed. -/
def fail {α : Type} (check artifact detail : String) : Stage α := do
  throw ⟨(← get).phase, check, artifact, detail⟩

/-- A result that a check depends on. -/
def require {α ε : Type} (check artifact : String) (message : ε → String) (result : Except ε α) :
    Stage α :=
  match result with
  | .ok a => pure a
  | .error e => fail check artifact (message e)

/-- Writes a file of the workspace. -/
def writeFile (check name : String) (data : Bytes) : Stage Unit := do
  let r ← get
  let files ← require check name FileError.message
    (r.files.write Workspace.path (Workspace.fileText name) data)
  set { r with files := files }

/-- Reads a file of the workspace. -/
def readFile (check name : String) : Stage Bytes := do
  require check name FileError.message
    ((← get).files.read Workspace.path (Workspace.fileText name))

/-- Calls a tool, which must end with a code of a class and without a fault. -/
def invoke (faults : List String) (s : Step) (vars : Variables) (expect : ExitClass) :
    Stage ToolOutput := do
  let r ← get
  let (result, files) := s.tool.runExpect (s.invocation vars) expect faults r.files
  set { r with files := files }
  require "tool run" s.tool.name ToolError.message result

/-- The outcome of a scenario that consists of a stage. -/
def outcome (name : String) (stage : Stage Unit) : Outcome :=
  let (result, r) := (stage.run.run ⟨Workspace.files, [.setup]⟩)
  let failure? := match result with
    | .ok () => none
    | .error f => some f
  let phase := if failure?.isNone then Phase.passed else Phase.failed
  ⟨name, phase, r.trace ++ [.teardown, phase], failure?⟩

end Stage

end TiBench
