import TiBench.Scenario.Run

/-!
# Scripts

What a scenario does, as a tree of actions: it enters phases, uses files, calls tools, and may find
that a check fails. Running a script is a stage.
-/

namespace TiBench

/-- What a script does at a time. -/
inductive Action : Type → Type 1 where
  | enter (p : Phase) : Action Unit
  | fail {α : Type} (check artifact detail : String) : Action α
  | write (check name : String) (data : Bytes) : Action Unit
  | read (check name : String) : Action Bytes
  | invoke (s : Step) (vars : Variables) (expect : ExitClass) : Action ToolOutput

/-- The action in a stage. -/
def Action.toStage {β : Type} (faults : List String) : Action β → Stage β
  | enter p => Stage.enter p
  | fail check artifact detail => Stage.fail check artifact detail
  | write check name data => Stage.writeFile check name data
  | read check name => Stage.readFile check name
  | invoke s vars expect => Stage.invoke faults s vars expect

/-- A first action and what is done with its reply. -/
inductive Script (α : Type) : Type 1 where
  | pure (a : α)
  | act {β : Type} (a : Action β) (next : β → Script α)

namespace Script

/-- One script after another. -/
def bind {α β : Type} : Script α → (α → Script β) → Script β
  | .pure a, f => f a
  | .act a next, f => .act a fun b => (next b).bind f

instance : Monad Script where
  pure := .pure
  bind := bind

/-- Enters a phase. -/
def enter (p : Phase) : Script Unit := .act (.enter p) .pure

/-- Stops because a check failed. -/
def fail {α : Type} (check artifact detail : String) : Script α :=
  .act (.fail check artifact detail) .pure

/-- A result that a check depends on. -/
def require {α ε : Type} (check artifact : String) (message : ε → String) (result : Except ε α) :
    Script α :=
  match result with
  | .ok a => .pure a
  | .error e => fail check artifact (message e)

/-- Writes a file of the workspace. -/
def writeFile (check name : String) (data : Bytes) : Script Unit :=
  .act (.write check name data) .pure

/-- Reads a file of the workspace. -/
def readFile (check name : String) : Script Bytes := .act (.read check name) .pure

/-- Calls a tool, which must end with a code of a class and without a fault. -/
def invoke (s : Step) (vars : Variables) (expect : ExitClass) : Script ToolOutput :=
  .act (.invoke s vars expect) .pure

/-- The result of a step: the file that it writes, or its output. -/
def result (s : Step) (file : String) (out : ToolOutput) : Script Bytes :=
  if s.writesFile then readFile "read result" file else Pure.pure out.stdout

/-- Calls a tool, which must succeed, and takes its result. -/
def send (s : Step) (vars : Variables) (file : String) : Script Bytes := do
  let out ← invoke s vars .success
  result s file out

/-- The script as a stage. -/
def toStage {α : Type} (faults : List String) : Script α → Stage α
  | .pure a => Pure.pure a
  | .act a next => a.toStage faults >>= fun b => (next b).toStage faults

end Script

end TiBench
