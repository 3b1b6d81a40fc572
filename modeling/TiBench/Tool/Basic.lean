import TiBench.FileTree
import TiBench.Text.Blank
import TiBench.Tool.Fault

/-!
# Tools

A tool is called with arguments, perhaps something to read, and files; it ends with an exit code
and leaves two streams of output and the files as it changed them. A call is checked against the
class of exit code that is expected and against signs of a raw fault.
-/

namespace TiBench

/-- The meaning of the exit codes that a tool may end with. -/
inductive ExitClass where
  | success
  | inputError
  | usageError
deriving DecidableEq, Repr

namespace ExitClass

/-- The exit code of a class. -/
def code : ExitClass → Int
  | .success => 0
  | .inputError => 1
  | .usageError => 2

/-- The class of an exit code. -/
def ofCode? (code : Int) : Option ExitClass :=
  if code = 0 then some .success
  else if code = 1 then some .inputError
  else if code = 2 then some .usageError
  else none

end ExitClass

/-- What a tool is called with. -/
structure Invocation where
  args : List String
  /-- What there is to read, if anything is. -/
  stdin? : Option Bytes
  /-- The working directory. -/
  cwd : Path
  /-- The default options, if there are any. -/
  defaults? : Option String

/-- The words of the default options, and the arguments after them. -/
def Invocation.effectiveArgs (inv : Invocation) : List String :=
  ((inv.defaults?.map fun d => (Text.words d.toList).map String.ofList).getD []) ++ inv.args

/-- What a tool leaves besides files. -/
structure ToolOutput where
  code : Int
  stdout : Bytes
  stderr : Bytes
deriving DecidableEq

namespace ToolOutput

/-- The output stream as text. -/
def stdoutText (out : ToolOutput) : List Char := Text.ofUtf8Lossy out.stdout

/-- The error stream as text. -/
def stderrText (out : ToolOutput) : List Char := Text.ofUtf8Lossy out.stderr

end ToolOutput

/-- Why a program cannot be started. -/
inductive StartError where
  /-- There is no such program. -/
  | noProgram (reason : FileError)
  /-- An argument or a variable is too long. -/
  | tooLong
  /-- Its name, an argument or a variable holds the character that ends texts for the system. -/
  | nulByte
deriving DecidableEq, Repr

/-- The wording of an error. -/
def StartError.message : StartError → String
  | .noProgram reason => reason.message
  | .tooLong => "Argument list too long (os error 7)"
  | .nulByte => "nul byte found in provided data"

/-- Why a call of a tool fails. -/
inductive ToolError where
  /-- The program could not be started. -/
  | notStarted (program : String) (reason : StartError)
  | exitCode (tool : String) (expected actual : Int) (stderr : String)
  /-- A line of the error stream shows a raw fault. -/
  | fault (tool line : String)
deriving DecidableEq, Repr

/-- The wording of an error. -/
def ToolError.message : ToolError → String
  | .notStarted program reason => "could not start `" ++ program ++ "`: " ++ reason.message
  | .exitCode tool expected actual stderr =>
    "`" ++ tool ++ s!"` exited with {actual}, expected {expected}, stderr:\n" ++ stderr
  | .fault tool line => "`" ++ tool ++ "` emitted an unstructured fault: " ++ line

/-- A tool: its name, and what a call of it does. -/
structure Tool where
  name : String
  run : Invocation → FileTree → Except ToolError ToolOutput × FileTree

namespace Tool

/-- What the output of a tool is worth: a fault goes before a wrong exit code. -/
def judge (tool : String) (expect : ExitClass) (faults : List String) (out : ToolOutput) :
    Except ToolError ToolOutput :=
  match scanFaults out.stderrText faults with
  | some line => .error (.fault tool (.ofList line))
  | none =>
    if out.code = expect.code then .ok out
    else .error (.exitCode tool expect.code out.code (.ofList out.stderrText))

/-- A call whose output must be that of a class of exit code, without a fault. -/
def runExpect (t : Tool) (inv : Invocation) (expect : ExitClass) (faults : List String)
    (files : FileTree) : Except ToolError ToolOutput × FileTree :=
  let (result, files) := t.run inv files
  (result.bind (judge t.name expect faults), files)

end Tool

end TiBench
