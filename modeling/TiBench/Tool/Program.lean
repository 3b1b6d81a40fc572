import TiBench.Tool.Basic

/-!
# External programs

A program of the system as a function of what it is started with, and the tool that starts one.
Default options reach the program in an environment variable, and only if the tool names one.
-/

namespace TiBench

/-- How to start an external tool. -/
structure ToolSpec where
  name : String
  program : String
  /-- The arguments before those of a call. -/
  args : List String
  /-- The environment variable that holds default options. -/
  defaultsVar? : Option String
deriving DecidableEq, Repr

/-- What a program is started with. -/
structure Process where
  name : String
  args : List String
  env : List (String × String)
  stdin : Bytes
  cwd : Path

namespace Process

/-- The texts that the system is given to start the process. -/
def texts (p : Process) : List String :=
  p.name :: p.args ++ p.env.map Prod.fst ++ p.env.map Prod.snd

/-- Whether a text of the process holds the character that ends texts for the system. -/
def hasNul (p : Process) : Bool := p.texts.any fun s => s.toList.contains (Char.ofNat 0)

/-- One more than the greatest number of bytes in an argument, and in a variable with its name. -/
def textBound : Nat := 131072

/-- Whether the system takes the arguments and variables of the process. -/
def fits (p : Process) : Bool :=
  (p.args ++ p.env.map fun (name, value) => name ++ "=" ++ value).all (·.utf8ByteSize < textBound)

/-- The directories in which programs are looked for, if the process has its own. -/
def searchPath? (p : Process) : Option String := p.env.lookup "PATH"

end Process

/-- How a program ends. -/
inductive Ending where
  | exited (code : Nat)
  /-- A signal ended the program. -/
  | killed (signal : Nat)
deriving DecidableEq, Repr

/-- What a program leaves. -/
structure ProgramRun where
  ending : Ending
  stdout : Bytes
  stderr : Bytes
  files : FileTree
  /-- What there was to read and has not been read. -/
  unread : Bytes

/-- A program. -/
abbrev Program := Process → FileTree → ProgramRun

/-- The programs of a system: the one that a process starts, or why it starts none. -/
abbrev Programs := Process → FileTree → Except FileError Program

/-- The exit code of a program that a signal ended. -/
def killedCode : Int := -1

namespace ToolSpec

/-- The process that a call starts. -/
def process (spec : ToolSpec) (inv : Invocation) : Process where
  name := spec.program
  args := spec.args ++ inv.args
  env := match spec.defaultsVar?, inv.defaults? with
    | some var, some value => [(var, value)]
    | _, _ => []
  stdin := inv.stdin?.getD []
  cwd := inv.cwd

/-- What a program leaves, as the output of the tool. The end by a signal is noted as a fault. -/
def output (spec : ToolSpec) (r : ProgramRun) : ToolOutput :=
  match r.ending with
  | .exited code => ⟨code, r.stdout, r.stderr⟩
  | .killed _ =>
    ⟨killedCode, r.stdout,
      r.stderr ++ Text.utf8 ("Internal error: " ++ spec.name ++ " terminated by signal\n")⟩

/-- The tool that starts a program. -/
def tool (programs : Programs) (spec : ToolSpec) : Tool where
  name := spec.name
  run inv files :=
    let process := spec.process inv
    if process.hasNul then (.error (.notStarted spec.program .nulByte), files)
    else match programs process files with
      | .error e => (.error (.notStarted spec.program (.noProgram e)), files)
      | .ok program =>
        if !process.fits then (.error (.notStarted spec.program .tooLong), files)
        else
          let r := program process files
          (.ok (spec.output r), r.files)

end ToolSpec

end TiBench
