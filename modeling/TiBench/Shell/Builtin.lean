import TiBench.Shell.Session

/-!
# Commands of the shell itself

The commands that change the session: its variables, arguments, directory, and what is run next.
-/

namespace TiBench.Shell

section

variable (ctx : Context)

/-- A program that the shell holds itself, run as a command. -/
def runHeld (name : String) (program : Program) (args : List String) : Act Unit := do
  let s ← get
  let own := ctx.name ++ ": " ++ toString s.line ++ ": " ++ name
  let r := program ⟨own, args, s.environment, s.stdin, s.cwd⟩ s.files
  let isLost := (s.sink? 1).isNone ∧ !r.stdout.isEmpty
  let s := (s.send 1 r.stdout).send 2 r.stderr
  set (if isLost then s.warn (own ++ ": " ++ name ++ ": I/O error\n") else s)
  match r.ending with
  | .exited code => setStatus (if isLost then 1 else code)
  | .killed signal => setStatus (128 + signal)

/-- A command of the shell fails. -/
def failAs (command text : String) (status : Nat) : Act Unit := do
  complainAs ctx (some command) text
  setStatus status

/-- The greatest number among arguments. -/
def maxArgument : Nat := 2147483647

/-- The number that an argument writes. -/
def argumentCount? (text : String) : Option Nat :=
  if text.isEmpty then none else (Text.digits? 10 text.toList).filter (· ≤ maxArgument)

/-- What is said of an argument that is no number. -/
def badNumber (text : String) : String := "Illegal number: " ++ text

/-- What is said of an argument that is no name of a variable. -/
def badName (text : String) : String := text ++ ": bad variable name"

/-- The first argument as a number of at least `least`, which may be missing. -/
def countArgument (command : String) (least : Nat) (args : List String) (default : Nat) :
    Act (Option Nat) := do
  match args with
  | [] => return some default
  | text :: _ =>
    match (argumentCount? text).filter (least ≤ ·) with
    | some n => return some n
    | none =>
      abortAs ctx (some command) (badNumber text)
      return none

/-- Ends the script. -/
def exit (args : List String) : Act Unit := do
  match ← countArgument ctx "exit" 0 args (← get).status with
  | some n => jump (.ended (.exited (n % 256)))
  | none => return

/-- Ends a function, or the script. -/
def returnFrom (args : List String) : Act Unit := do
  match ← countArgument ctx "return" 0 args (← get).status with
  | some n =>
    setStatus n
    jump (if (← get).saved?.isSome then .return else .ended (.exited (n % 256)))
  | none => return

/-- Ends loops, or goes on with the next round. -/
def leaveLoops (command : String) (make : Nat → Jump) (args : List String) : Act Unit := do
  match ← countArgument ctx command 1 args 1 with
  | some n =>
    setStatus 0
    let loops := (← get).loops
    if 0 < loops then jump (make (min n loops))
  | none => return

/-- Goes to a directory. -/
def changeDirectory (args : List String) : Act Unit := do
  let s ← get
  let (target, isShown) : String × Bool := match args.filter (· != "--") with
    | [] => ((s.value? "HOME").getD "", false)
    | "-" :: _ => ((s.value? "OLDPWD").getD "", true)
    | path :: _ => (path, false)
  let place := s.files.locate s.cwd (if target.isEmpty then "." else target)
  match place.toOption.filter fun path => s.files.get? path = some .directory with
  | some path =>
    let text := FileTree.pathText path
    let s := if isShown then s.say (text ++ "\n") else s
    let s := s.setVariable "OLDPWD" (FileTree.pathText s.cwd)
    set { s.setVariable "PWD" text with cwd := path, status := 0 }
  | none => failAs ctx "cd" ("can't cd to " ++ target) 2

/-- Prints the directory. -/
def printDirectory : Act Unit := do
  let s ← get
  let path := if s.cwd.isEmpty then "/" else FileTree.pathText s.cwd
  set (s.say (path ++ "\n"))
  setStatus 0

/-- The name that an argument sets, and its value if it has one. -/
def assignment (arg : String) : String × Option String :=
  match Pieces.splitOnce (· == '=') arg.toList with
  | some (name, value) => (String.ofList name, some (String.ofList value))
  | none => (arg, none)

/-- Sets variables as the arguments of a command say. Before and after that, something is done with
each of them. -/
def assignAll (command : String) (before after : Session → String → Session) :
    (args : List String) → Act Unit
  | [] => setStatus 0
  | arg :: more => do
    let (name, value?) := assignment arg
    if !Arithmetic.isName name.toList then abortAs ctx (some command) (badName name)
    else if value?.isSome ∧ (← get).isReadOnly name then
      abortAs ctx (some command) (readOnlyText name)
    else
      modify fun s =>
        let s := before s name
        after (value?.elim s (s.setVariable name)) name
      assignAll command before after more

/-- Marks variables, which may also be set. -/
def markAll (command : String) (mark : Session → String → Session) (args : List String) :
    Act Unit :=
  assignAll ctx command (fun s _ => s) mark (args.filter (·.toList.head? != some '-'))

/-- Notes the value that a variable gets back at the end of the function. -/
def saveVariable (s : Session) (name : String) : Session :=
  { s with
    saved? := s.saved?.map fun saved =>
      if saved.any (·.1 == name) then saved
      else (name, s.bindings.find? (·.name == name)) :: saved }

/-- Makes variables belong to the function. -/
def makeLocal (args : List String) : Act Unit := do
  match (← get).saved? with
  | some _ => assignAll ctx "local" saveVariable (fun s _ => s) args
  | none => abortAs ctx (some "local") "not in a function"

/-- Removes variables, or functions. -/
def unsetAll (args : List String) : Act Unit := do
  match args with
  | "-f" :: names =>
    modify fun s => { s with functions := s.functions.filter fun f => !names.contains f.1 }
    setStatus 0
  | _ =>
    let names := args.filter (· != "-v")
    let s ← get
    match names.find? fun name => !Arithmetic.isName name.toList, names.find? s.isReadOnly with
    | some name, _ => abortAs ctx (some "unset") (badName name)
    | none, some name => abortAs ctx (some "unset") (readOnlyText name)
    | none, none =>
      set (names.foldl Session.unsetVariable s)
      setStatus 0

/-- What is said of an option that there is not. -/
def badOption (text : String) : String := "Illegal option -" ++ text

/-- Options of the shell, and what follows them. -/
structure OptionChoice where
  on : List Char
  off : List Char
  operands : List String
  /-- The operands take the place of the arguments of the script. -/
  hasOperands : Bool

/-- The options among arguments, where letters of `others` count too, or the first that is none. -/
def chooseOptions (others : List Char) : (args : List String) → Except String OptionChoice
  | [] => .ok ⟨[], [], [], false⟩
  | "--" :: args => .ok ⟨[], [], args, true⟩
  | "-o" :: name :: args =>
    match Session.optionLetter? name with
    | some c => (chooseOptions others args).map fun r => { r with on := c :: r.on }
    | none => .error ("o " ++ name)
  | "+o" :: name :: args =>
    match Session.optionLetter? name with
    | some c => (chooseOptions others args).map fun r => { r with off := c :: r.off }
    | none => .error ("o " ++ name)
  | arg :: args =>
    match arg.toList with
    | sign :: c :: letters =>
      if sign ≠ '-' ∧ sign ≠ '+' then .ok ⟨[], [], arg :: args, true⟩
      else
        let known (c : Char) : Bool := others.contains c || (Session.optionNames.lookup c).isSome
        match (c :: letters).find? fun c => !known c with
        | some c => .error c.toString
        | none => (chooseOptions others args).map fun r =>
          if sign = '-' then { r with on := c :: letters ++ r.on }
          else { r with off := c :: letters ++ r.off }
    | _ => .ok ⟨[], [], arg :: args, true⟩

/-- Turns options on and off, and sets the arguments of the script. -/
def setOptions (args : List String) : Act Unit := do
  match chooseOptions [] args with
  | .ok r =>
    modify fun s =>
      let s := (s.setOptions true r.on).setOptions false r.off
      { s with args := if r.hasOperands then r.operands else s.args, status := 0 }
  | .error text => abortAs ctx (some "set") (badOption text)

/-- Drops the first arguments of the script. -/
def shift (args : List String) : Act Unit := do
  match ← countArgument ctx "shift" 0 args 1 with
  | some n =>
    if (← get).args.length < n then abortAs ctx (some "shift") "can't shift that many"
    else
      modify fun s => { s with args := s.args.drop n }
      setStatus 0
  | none => return

/-- A line without its quoting: a backslash quotes the next character. -/
def unquoteLine : List Char → List Char
  | '\\' :: c :: s => c :: unquoteLine s
  | ['\\'] => []
  | c :: s => c :: unquoteLine s
  | [] => []

/-- The first field of a line, and the line after the separators that follow it. -/
def spanField (separators : List Char) (s : List Char) : List Char × List Char :=
  let isBlank (c : Char) : Bool := separators.contains c && c ∈ [' ', '\t', '\n']
  let field := s.takeWhile (!separators.contains ·)
  let rest := (s.drop field.length).dropWhile isBlank
  match rest with
  | c :: after => (field, if separators.contains c then after.dropWhile isBlank else rest)
  | [] => (field, [])

/-- The values of variables that get the fields of a line, the last one the rest of it. -/
def lineFields (separators : List Char) : (names : List String) → List Char →
    List (String × List Char)
  | [], _ => []
  | [name], s =>
    [(name, Pieces.dropEndWhile (fun c => separators.contains c && c ∈ [' ', '\t', '\n']) s)]
  | name :: more, s =>
    let (field, rest) := spanField separators s
    (name, field) :: lineFields separators more rest

/-- Reads a line into variables. -/
def readLine (args : List String) : Act Unit := do
  let isRaw := args.contains "-r"
  let names := args.filter (·.toList.head? != some '-')
  let s ← get
  let (line, rest, isWhole) := match Pieces.splitOnce (· == 0x0a) s.stdin with
    | some (line, rest) => (line, rest, true)
    | none => (s.stdin, [], false)
  let text := (Text.ofUtf8Lossy line).dropWhile fun c => s.separators.contains c
  let text := if isRaw then text else unquoteLine text
  match names, names.find? fun name => !Arithmetic.isName name.toList, names.find? s.isReadOnly with
  | [], _, _ => failAs ctx "read" "arg count" 2
  | _, some name, _ => failAs ctx "read" (badName name) 2
  | _, none, some name =>
    set { s with stdin := rest }
    failAs ctx "read" (readOnlyText name) 2
  | _, none, none =>
    let s := (lineFields s.separators names text).foldl (fun s (name, value) =>
      s.setVariable name (String.ofList value)) s
    set { s with stdin := rest, status := if isWhole then 0 else 1 }

/-- A signal comes to the script, which it ends unless something else is to be done. -/
def receive (signal : Nat) : Act Unit := do
  let trap? := (← get).traps.lookup signal
  match trap?.filter fun _ => signal ≠ Signal.kill with
  | some "" => return
  | some _ => modify fun s => { s with pending := s.pending ++ [signal] }
  | none => unless Signal.isHarmless signal do jump (.ended (.killed signal))

/-- Sends a signal to each of some processes. -/
def sendSignal (signal : Nat) : (targets : List String) → Act Unit
  | [] => return
  | target :: more => do
    let s ← get
    let digits := match target.toList with
      | '-' :: digits => digits
      | digits => digits
    match target.toList with
    | '%' :: _ => failAs ctx "kill" ("No such job: " ++ target) 2
    | _ =>
      if digits.isEmpty ∨ !digits.all Char.isDigit then
        failAs ctx "kill" (badNumber (String.ofList digits)) 2
      else
        if target = toString processNumber then receive signal
        else failAs ctx "kill" "No such process\n" 1
        if s.jump?.isNone then sendSignal signal more

/-- Sends a signal to processes, or prints names of signals. -/
def kill (args : List String) : Act Unit := do
  let usage := failAs ctx "kill"
    "Usage: kill [-s sigspec | -signum | -sigspec] [pid | job]... or\nkill -l [exitstatus]" 2
  let sendAll (signal : Nat) (targets : List String) : Act Unit := do
    if targets.isEmpty then usage
    else
      setStatus 0
      sendSignal ctx signal targets
  let say (lines : List String) : Act Unit := do
    modify fun s => s.say (String.join (lines.map (· ++ "\n")))
    setStatus 0
  match args, (args.head?.bind fun a => (Pieces.splitOnce (· == '-') a.toList)) with
  | _ :: targets, some ([], text) =>
    match Signal.number? (String.ofList text), text, targets with
    | some signal, _, _ => sendAll signal targets
    | none, ['l'], [] => say ("0" :: Signal.table.map Prod.fst)
    | none, ['l'], code :: _ =>
      match (argumentCount? code).map (fun n => if 128 < n then n - 128 else n) with
      | none => failAs ctx "kill" (badNumber code) 2
      | some n =>
        if 0 < n ∧ n < Signal.bound then say [Signal.name n]
        else failAs ctx "kill" ("invalid signal number or exit status: " ++ code) 2
    | none, ['s'], name :: targets =>
      match Signal.number? name with
      | some signal => sendAll signal targets
      | none => failAs ctx "kill" ("invalid signal number or name: " ++ name) 2
    | none, ['-'], _ => sendAll Signal.terminate targets
    | none, c :: _, _ => failAs ctx "kill" (badOption c.toString) 2
    | none, [], _ => failAs ctx "kill" (badNumber "-") 2
  | _, _ => sendAll Signal.terminate args

/-- A text in quotes that keep all of it. -/
def inQuotes (text : String) : String :=
  "'" ++ "'\"'\"'".intercalate ((Pieces.splitOn (· == '\x27') text.toList).map String.ofList) ++ "'"

/-- Says what is run when signals come, or at the end. -/
def trapSignals (action? : Option String) : (names : List String) → Act Unit
  | [] => setStatus 0
  | name :: more => do
    match Signal.number? name with
    | some n =>
      modify fun s =>
        let others := s.traps.filter (·.1 != n)
        { s with traps := action?.elim others fun action => (n, action) :: others }
      trapSignals action? more
    | none =>
      modify fun s => s.warn ("trap: " ++ name ++ ": bad trap\n")
      setStatus 1

/-- Says what is run when signals come, or prints that. -/
def setTraps (args : List String) : Act Unit := do
  match args.dropWhile (· == "--") with
  | [] =>
    let s ← get
    let ordered := s.traps.mergeSort fun a b => a.1 ≤ b.1
    let text := String.join (ordered.map fun (n, action) =>
      "trap -- " ++ inQuotes action ++ " " ++ Signal.name n ++ "\n")
    set (s.say text)
    setStatus 0
  | [name] => trapSignals none [name]
  | action :: names =>
    if (argumentCount? action).isSome then trapSignals none (action :: names)
    else trapSignals (if action = "-" then none else some action) names

/-- The command of the shell itself with a name. -/
def builtin? (name : String) : Option (List String → Act Unit) :=
  match name with
  | ":" | "true" | "wait" | "times" | "umask" | "ulimit" | "alias" | "unalias" | "hash" | "jobs" =>
    some fun _ => setStatus 0
  | "false" => some fun _ => setStatus 1
  | "exit" => some (exit ctx)
  | "return" => some (returnFrom ctx)
  | "break" => some (leaveLoops ctx "break" .leave)
  | "continue" => some (leaveLoops ctx "continue" .goOn)
  | "cd" => some (changeDirectory ctx)
  | "pwd" => some fun _ => printDirectory
  | "export" => some (markAll ctx name Session.exportVariable)
  | "readonly" => some (markAll ctx name Session.protectVariable)
  | "local" => some (makeLocal ctx)
  | "unset" => some (unsetAll ctx)
  | "set" => some (setOptions ctx)
  | "shift" => some (shift ctx)
  | "read" => some (readLine ctx)
  | "kill" => some (kill ctx)
  | "trap" => some setTraps
  | "echo" => some (runHeld ctx "echo" echo)
  | "printf" => some (runHeld ctx "printf" printFormat)
  | "test" => some (runHeld ctx "test" test)
  | "[" => some (runHeld ctx "[" test)
  | _ => none

end

end TiBench.Shell
