import TiBench.Shell.Arithmetic
import TiBench.Shell.Script
import TiBench.Shell.Signal
import TiBench.Shell.Standard

/-!
# Sessions

How far a script has come: its files, variables, functions and streams, and the status of the last
command.
-/

namespace TiBench.Shell

/-- What a script is run with. -/
structure Context where
  /-- The name by which the script calls itself. -/
  name : String
  programs : Programs

/-- Where output goes. -/
inductive Sink where
  | out
  | err
  | file (path : Path)
  /-- A pipe, by the number of pipes that were open before it. -/
  | pipe (n : Nat)
  | nothing
deriving DecidableEq, Repr

/-- Why the commands that follow are not run. -/
inductive Jump where
  | ended (e : Ending)
  /-- So many loops end. -/
  | leave (loops : Nat)
  /-- The innermost of so many loops goes on with its next round, and the others end. -/
  | goOn (loops : Nat)
  /-- A function ends. -/
  | return
deriving DecidableEq, Repr

/-- Whether a signal has ended the script. -/
def Jump.isKilling : Jump → Bool
  | .ended (.killed _) => true
  | _ => false

/-- A variable. Those that are exported reach the programs that are started. -/
structure Variable where
  name : String
  value : String
  isExported : Bool
  isReadOnly : Bool
deriving DecidableEq, Repr

/-- How far a script has come. -/
structure Session where
  files : FileTree
  cwd : Path
  bindings : List Variable
  functions : List (String × Command)
  args : List String
  /-- What there is to read and has not been read. -/
  stdin : Bytes
  /-- Where the output of each stream goes. Number 1 is for results, number 2 for complaints. -/
  streams : List (Nat × Sink)
  /-- What has been printed on both streams, and to the pipes that are open, part by part and the
  last part first. -/
  stdout : List Bytes
  stderr : List Bytes
  pipes : List (List Bytes)
  status : Nat
  /-- The status of the last nested script that the present command has run. -/
  nested : Nat
  jump? : Option Jump
  /-- The line of the present command. -/
  line : Nat
  /-- The number of loops around the present command. -/
  loops : Nat
  /-- The letters of the options that are on. -/
  options : List Char
  /-- The failure of the present command does not end the script. -/
  tolerates : Bool
  /-- The command on whose behalf the present one runs. -/
  owner? : Option String
  /-- In a function, the variables that get their old values back when it ends. -/
  saved? : Option (List (String × Option Variable))
  /-- What is run when signals come. -/
  traps : List (Nat × String)
  /-- The signals that have come, for which something is to be run. -/
  pending : List Nat
  /-- The present command runs apart from the script that the process has been started with. -/
  isNested : Bool

/-- The number by which a script knows its own process. -/
def processNumber : Nat := 4242

/-- What a script does. -/
abbrev Act := StateM Session

namespace Session

/-- The variable that an entry of the environment gives, if its name is one. -/
def imported? (entry : String × String) : Option Variable := do
  let text := (entry.1 ++ "=" ++ entry.2).toList
  let (name, value) ← Pieces.splitOnce (· == '=') text
  guard (Arithmetic.isName name)
  return ⟨String.ofList name, String.ofList value, true, false⟩

/-- At the start of a script. -/
def start (files : FileTree) (cwd : Path) (env : List (String × String)) (args : List String)
    (stdin : Bytes) (options : List Char) : Session where
  files := files
  cwd := cwd
  bindings := env.filterMap imported?
  functions := []
  args := args
  stdin := stdin
  streams := [(1, .out), (2, .err)]
  stdout := []
  stderr := []
  pipes := []
  status := 0
  nested := 0
  jump? := none
  line := 1
  loops := 0
  options := options
  tolerates := false
  owner? := none
  saved? := none
  traps := []
  pending := []
  isNested := false

/-- The session in which a stream goes to a sink, or is closed. -/
def setStream (s : Session) (fd : Nat) (sink? : Option Sink) : Session :=
  { s with streams := (sink?.map (fd, ·)).toList ++ s.streams.filter (·.1 != fd) }

/-- The sink of a stream that is open. -/
def sink? (s : Session) (fd : Nat) : Option Sink := s.streams.lookup fd

/-- Bytes printed on a stream. -/
def send (s : Session) (fd : Nat) (data : Bytes) : Session :=
  match (s.sink? fd).getD .nothing with
  | .out => { s with stdout := data :: s.stdout }
  | .err => { s with stderr := data :: s.stderr }
  | .pipe n => { s with pipes := s.pipes.modify n (data :: ·) }
  | .nothing => s
  | .file path =>
    match s.files.get? path with
    | some (.file old) => { s with files := s.files.put path (.file (old ++ data)) }
    | _ => s

/-- A text printed as a result. -/
def say (s : Session) (text : String) : Session := s.send 1 (Text.utf8 text)

/-- A text printed as a complaint. -/
def warn (s : Session) (text : String) : Session := s.send 2 (Text.utf8 text)

/-- The value of a variable. -/
def value? (s : Session) (name : String) : Option String :=
  (s.bindings.find? (·.name == name)).map Variable.value

/-- The session in which the variable with a name has changed, if there is one. -/
def changeVariable (s : Session) (name : String) (f : Variable → Variable) : Session :=
  { s with bindings := s.bindings.map fun v => if v.name == name then f v else v }

/-- The session in which a variable has a value. -/
def setVariable (s : Session) (name value : String) : Session :=
  if s.bindings.any (·.name == name) then
    s.changeVariable name fun v => { v with value := value }
  else
    { s with bindings := s.bindings ++ [⟨name, value, s.options.contains 'a', false⟩] }

/-- The session without a variable. -/
def unsetVariable (s : Session) (name : String) : Session :=
  { s with bindings := s.bindings.filter (·.name != name) }

/-- The session in which a variable is exported, if there is one. -/
def exportVariable (s : Session) (name : String) : Session :=
  s.changeVariable name fun v => { v with isExported := true }

/-- The session in which a variable keeps its value, if there is one. -/
def protectVariable (s : Session) (name : String) : Session :=
  s.changeVariable name fun v => { v with isReadOnly := true }

/-- Whether a variable keeps its value. -/
def isReadOnly (s : Session) (name : String) : Bool :=
  s.bindings.any fun v => v.name == name && v.isReadOnly

/-- The variables that programs get. That of the search path is always one of them. -/
def environment (s : Session) : List (String × String) :=
  (s.bindings.filter fun v => v.isExported || v.name == "PATH").map fun v => (v.name, v.value)

/-- The process for a call of a program. -/
def process (s : Session) (name : String) (args : List String) : Process :=
  ⟨name, args, s.environment, s.stdin, s.cwd⟩

/-- The letters and names of the options. -/
def optionNames : List (Char × String) := [
  ('e', "errexit"), ('f', "noglob"), ('I', "ignoreeof"), ('i', "interactive"), ('m', "monitor"),
  ('n', "noexec"), ('s', "stdin"), ('x', "xtrace"), ('v', "verbose"), ('V', "vi"), ('E', "emacs"),
  ('C', "noclobber"), ('a', "allexport"), ('b', "notify"), ('u', "nounset"), ('p', "privileged")]

/-- The letter of the option with a name. -/
def optionLetter? (name : String) : Option Char :=
  (optionNames.find? (·.2 == name)).map Prod.fst

/-- The letters of the options that are on, in the order in which they are shown. -/
def shownOptions (s : Session) : List Char :=
  (optionNames.map Prod.fst).reverse.filter s.options.contains

/-- The session in which options are on, or off. -/
def setOptions (s : Session) (isOn : Bool) (letters : List Char) : Session :=
  let others := s.options.filter (· ∉ letters)
  { s with options := if isOn then others ++ letters else others }

/-- The characters that separate fields. -/
def separators (s : Session) : List Char := ((s.value? "IFS").getD " \t\n").toList

/-- The characters that separate fields where anything does. -/
def separatorsIf (s : Session) (splits : Bool) : List Char := if splits then s.separators else []

/-- The values of a parameter. Only `@` and `*` have more or less than one. -/
def parameterValues? (ctx : Context) (s : Session) (name : List Char) : Option (List String) :=
  match name with
  | ['@'] | ['*'] => some s.args
  | ['#'] => some [toString s.args.length]
  | ['?'] => some [toString s.status]
  | ['$'] => some [toString processNumber]
  | ['-'] => some [String.ofList s.shownOptions]
  | ['0'] => some [ctx.name]
  | _ =>
    if name.all Char.isDigit then (s.args[(Text.digits? 10 name).getD 0 - 1]?).map ([·])
    else (s.value? (String.ofList name)).map ([·])

end Session

/-- What one of the commands of a script says on the error stream. -/
def complainAs (ctx : Context) (owner? : Option String) (text : String) : Act Unit :=
  modify fun s =>
    let start := ctx.name ++ ": " ++ toString s.line ++ ": " ++ owner?.elim "" (· ++ ": ")
    s.warn (start ++ text ++ "\n")

/-- What a script says of itself on the error stream. -/
def complain (ctx : Context) (text : String) : Act Unit := do
  complainAs ctx (← get).owner? text

/-- The status of the present command. -/
def setStatus (status : Nat) : Act Unit := modify fun s => { s with status := status }

/-- The commands that follow are not run. -/
def jump (j : Jump) : Act Unit := modify fun s => { s with jump? := some j }

/-- The script fails as a whole by one of its commands. -/
def abortAs (ctx : Context) (owner? : Option String) (text : String) : Act Unit := do
  complainAs ctx owner? text
  setStatus 2
  jump (.ended (.exited 2))

/-- The script fails as a whole. -/
def abort (ctx : Context) (text : String) : Act Unit := do
  abortAs ctx (← get).owner? text

/-- What is said of a variable that cannot be set. -/
def readOnlyText (name : String) : String := name ++ ": is read only"

end TiBench.Shell
