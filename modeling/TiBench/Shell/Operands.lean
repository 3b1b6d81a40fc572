import TiBench.Shell.Condition

/-!
# Operands

What the arguments of a program say: the letters of options, and the operands on which it works one
after the other.
-/

namespace TiBench.Shell

/-- The reason for an error as programs word it. -/
def reason : FileError → String
  | .notFound => "No such file or directory"
  | .notDirectory => "Not a directory"
  | .isDirectory => "Is a directory"
  | .nameTooLong => "File name too long"
  | .permissionDenied => "Permission denied"
  | .nulByte => "Invalid argument"

/-- What the arguments of a program say. -/
structure Usage where
  letters : List Char
  operands : List String

/-- What arguments say, or what is wrong with an option among them. An option may stand behind an
operand, but not behind two dashes. -/
def usage? (known : List Char) : (args : List String) → Except String Usage
  | [] => .ok ⟨[], []⟩
  | "--" :: args => .ok ⟨[], args⟩
  | arg :: args =>
    match arg.toList with
    | '-' :: '-' :: _ => .error ("unrecognized option '" ++ arg ++ "'")
    | '-' :: c :: letters =>
      match (c :: letters).find? (!known.contains ·) with
      | some c => .error ("invalid option -- '" ++ c.toString ++ "'")
      | none => (usage? known args).map fun u => { u with letters := c :: letters ++ u.letters }
    | _ => (usage? known args).map fun u => { u with operands := arg :: u.operands }

/-- What a process leaves that has been called in a wrong way. -/
def misused (p : Process) (files : FileTree) (text : String) : ProgramRun :=
  fails p files 1 (text ++ "\nTry '" ++ p.name ++ " --help' for more information.")

/-- The program that runs by what its arguments say, with known letters of options alone. -/
def withOptions (known : List Char) (run : Process → FileTree → Usage → ProgramRun) : Program :=
  fun p files =>
    match usage? known p.args with
    | .ok u => run p files u
    | .error text => misused p files text

/-- What a program has come to that works on one operand after the other. -/
structure Progress where
  files : FileTree
  /-- What is left to read. -/
  stdin : Bytes
  out : Bytes
  faults : List String

namespace Progress

/-- One more complaint. -/
def fault (g : Progress) (text : String) : Progress := { g with faults := g.faults ++ [text] }

/-- The files after a change, which may fail with a complaint. -/
def change (g : Progress) (r : Except String FileTree) : Progress :=
  match r with
  | .ok files => { g with files := files }
  | .error text => g.fault text

/-- What the process leaves. Complaints make it fail. -/
def finish (g : Progress) (p : Process) (failure : Nat) : ProgramRun :=
  let err := String.join (g.faults.map fun text => p.name ++ ": " ++ text ++ "\n")
  ⟨.exited (if g.faults.isEmpty then 0 else failure), g.out, Text.utf8 err, g.files, g.stdin⟩

end Progress

/-- What a process leaves after it has worked on its operands. -/
def workThrough (p : Process) (files : FileTree) (failure : Nat) (operands : List String)
    (step : Progress → String → Progress) : ProgramRun :=
  (operands.foldl step ⟨files, p.stdin, [], []⟩).finish p failure

/-- The file that is always empty. -/
def nullFile : String := "/dev/null"

/-- What a program reads from a file, and what it leaves to read. -/
def Progress.input (g : Progress) (cwd : Path) (path : String) :
    Except FileError (Bytes × Progress) :=
  if path = "-" ∨ path = "/dev/stdin" then .ok (g.stdin, { g with stdin := [] })
  else if path = nullFile then .ok ([], g)
  else (g.files.read cwd path).map (·, g)

/-- Whether a path leads to a directory with that text. -/
def directory? (files : FileTree) (cwd : Path) (path : String) : Option Path :=
  (files.locate cwd path).toOption.filter fun p => files.get? p = some .directory

/-- The characters that programs quote in the names of files. -/
def quotedChars : List Char :=
  [' ', '\t', '\n', '!', '"', '$', '&', '(', ')', '*', ';', '<', '=', '>', '?', '[', '\\', '^', '`',
    '|']

/-- The name of a file in a complaint, in quotes if it would be read as something else without
them. -/
def shownName (path : String) : String :=
  if path.toList.contains '\x27' then "\"" ++ path ++ "\""
  else if path.isEmpty ∨ path.toList.any quotedChars.contains then "'" ++ path ++ "'"
  else path

end TiBench.Shell
