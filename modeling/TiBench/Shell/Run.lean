import TiBench.Shell.Builtin
import TiBench.Shell.Expansion
import TiBench.Shell.Grammar

/-!
# Running shell scripts

A script runs command by command. Its streams are collected; the status of the last command is its
exit code unless it ends itself.
-/

namespace TiBench.Shell

/-- Whether a pipeline runs after the status of the one before it. -/
def Link.holds (link : Link) (status : Nat) : Bool :=
  match link with
  | .always => true
  | .onSuccess => status == 0
  | .onFailure => status != 0

/-- The exit code of a script as far as it has come. -/
def Session.exitCode (s : Session) : Nat :=
  match s.jump? with
  | some (.ended (.exited code)) => code
  | _ => s.status

/-- The session after commands that ran apart from it and left `r`. -/
def Session.afterSubshell (s r : Session) : Session :=
  { s with
    files := r.files
    stdin := r.stdin
    stdout := r.stdout
    stderr := r.stderr
    pipes := r.pipes
    pending := r.pending
    status := r.exitCode
    jump? := if r.jump?.any Jump.isKilling then r.jump? else s.jump? }

/-- The variables of which one has its old value back. -/
def restored (bindings : List Variable) (old : String × Option Variable) : List Variable :=
  bindings.filter (·.name != old.1) ++ old.2.toList

/-- Runs commands apart from the session. -/
def inSubshell (act : Act Unit) : Act Unit := do
  let s ← get
  let traps := s.traps.filter (·.1 != Signal.atExit)
  let ((), r) := act.run { s with traps := traps, isNested := true }
  set (s.afterSubshell r)

/-- Runs commands apart from the session and collects what they print. -/
def collecting (act : Act Unit) : Act Bytes := do
  let before ← get
  let n := before.pipes.length
  set ({ before with pipes := before.pipes ++ [[]] }.setStream 1 (some (.pipe n)))
  inSubshell act
  let s ← get
  set { s with pipes := s.pipes.take n, streams := before.streams }
  return (s.pipes.getD n []).reverse.flatten

/-- Runs commands whose failure does not end the script. -/
def tolerating (act : Act Unit) : Act Unit := do
  let s ← get
  set { s with tolerates := true }
  act
  modify fun r => { r with tolerates := s.tolerates }

/-- Runs commands whose failure may end the script, whatever they are part of. -/
def notTolerating (act : Act Unit) : Act Unit := do
  let s ← get
  set { s with tolerates := false }
  act
  modify fun r => { r with tolerates := s.tolerates }

/-- Runs a round of a loop, and says whether it goes on. -/
def round (act : Act Unit) : Act Bool := do
  modify fun s => { s with loops := s.loops + 1 }
  act
  let s ← get
  let (jump?, goesOn) : Option Jump × Bool := match s.jump? with
    | none => (none, true)
    | some (.leave n) => (if n ≤ 1 then none else some (.leave (n - 1)), false)
    | some (.goOn n) => if n ≤ 1 then (none, true) else (some (.goOn (n - 1)), false)
    | some j => (some j, false)
  set { s with loops := s.loops - 1, jump? := jump? }
  return goesOn

section

variable (ctx : Context)

/-- What is said of something that is no number of a stream. -/
def badStream : String := "Syntax error: Bad fd number"

/-- The sink for a path. -/
def openSink (append : Bool) (path : String) : Act (Option Sink) := do
  let s ← get
  if path = nullFile then return some .nothing
  if path = "/dev/stdout" then return s.sink? 1
  if path = "/dev/stderr" then return s.sink? 2
  let old := if append then (s.files.read s.cwd path).toOption.getD [] else []
  match s.files.write s.cwd path old, s.files.locate s.cwd path with
  | .ok files, .ok place =>
    set { s with files := files }
    return some (.file place)
  | .error e, _ | _, .error e =>
    let why := if e = .notFound then "Directory nonexistent" else reason e
    complain ctx ("cannot create " ++ path ++ ": " ++ why)
    return none

/-- What is said where no program is started, and the status of that. -/
def notStarted (name : String) (e : FileError) : String × Nat :=
  if name.isEmpty then (reason .permissionDenied, 127)
  else match e with
    | .notFound => ("not found", 127)
    | .notDirectory => ("not found", 126)
    | .nameTooLong => (reason e, 127)
    | _ => (reason e, 126)

/-- Starts a program. -/
def runProgram (name : String) (args : List String) : Act Unit := do
  let s ← get
  match ctx.programs (s.process name args) s.files with
  | .ok program =>
    let r := program (s.process name args) s.files
    let s := { s with files := r.files, stdin := r.unread }
    set ((s.send 1 r.stdout).send 2 r.stderr)
    match r.ending with
    | .exited code => setStatus code
    | .killed signal =>
      match Signal.notice? signal with
      | some text => modify fun s => s.warn (text ++ "\n")
      | none => pure ()
      setStatus (128 + signal)
  | .error e =>
    let (text, status) := notStarted name e
    complain ctx (name ++ ": " ++ text)
    setStatus status

/-- Runs a command of the shell, or a program. -/
def runFound (name : String) (args : List String) : Act Unit :=
  match builtin? ctx name with
  | some act => act args
  | none => runProgram ctx name args

/-- Starts a program in place of the script. -/
def replaceBy (name : String) (args : List String) : Act Unit := do
  let s ← get
  set { s with traps := [] }
  match ctx.programs (s.process name args) s.files with
  | .ok _ => runProgram ctx name args
  | .error e =>
    let (text, status) := notStarted name e
    complainAs ctx (some "exec") (name ++ ": " ++ text)
    setStatus status
  jump (.ended (.exited (← get).status))

/-- What a name stands for as a command: the text by which it is started, and what that is. -/
def described? (s : Session) (name : String) : Option (String × String) :=
  if keywords.contains name then some (name, "a shell keyword")
  else if s.functions.any (·.1 == name) then some (name, "a shell function")
  else if specialBuiltins.contains name then some (name, "a special shell builtin")
  else if (builtin? ctx name).isSome ∨ name ∈ ["command", "type"] then
    some (name, "a shell builtin")
  else if (ctx.programs (s.process name []) s.files).isOk then
    let path := if name.toList.contains '/' then name else "/usr/bin/" ++ name
    some (path, path)
  else none

/-- Says how commands would be started, or what they are. -/
def describeCommands (inFull : Bool) (names : List String) : Act Unit := do
  let s ← get
  let lines := names.filterMap fun name =>
    match described? ctx s name with
    | some (text, what) => some (if inFull then name ++ " is " ++ what else text)
    | none => if inFull then some (name ++ ": not found") else none
  set (s.say (String.join (lines.map (· ++ "\n"))))
  setStatus (if names.all fun name => (described? ctx s name).isSome then 0 else 127)

/-- Says what runs next, if the script is traced. -/
def trace (settings : List (String × String)) (words : List String) : Act Unit :=
  modify fun s =>
    if s.options.contains 'x' then
      let all := settings.map (fun (name, value) => name ++ "=" ++ value) ++ words
      s.warn ((s.value? "PS4").getD "+ " ++ " ".intercalate all ++ "\n")
    else s

mutual

/-- Runs a list of commands. -/
def runScript : (fuel : Nat) → Script → Act Unit
  | 0, _ | _, [] => return
  | fuel + 1, (link, isNegated, commands) :: more => do
    let s ← get
    if s.jump?.isSome ∨ s.options.contains 'n' then return
    if link.holds s.status then
      let isLast : Bool := match more with
        | (next, _, _) :: _ => next == .always
        | [] => true
      if isNegated then
        tolerating (runPipeline fuel commands)
        if (← get).jump?.isNone then setStatus (if (← get).status = 0 then 1 else 0)
      else if isLast then
        runPipeline fuel commands
        let s ← get
        if s.options.contains 'e' ∧ !s.tolerates ∧ s.status ≠ 0 ∧ s.jump?.isNone then
          jump (.ended (.exited s.status))
      else tolerating (runPipeline fuel commands)
    runTraps fuel
    runScript fuel more

/-- Runs what is to be run for the signals that have come. -/
def runTraps : (fuel : Nat) → Act Unit
  | 0 => return
  | fuel + 1 => do
    let s ← get
    match s.pending, s.isNested, s.jump? with
    | signal :: more, false, none =>
      set { s with pending := more }
      runText fuel ((s.traps.lookup signal).getD "").toList
      if (← get).jump?.isNone then setStatus s.status
      runTraps fuel
    | _, _, _ => return

/-- Runs a pipeline. A single command runs in the session itself. -/
def runPipeline : (fuel : Nat) → List Command → Act Unit
  | 0, _ => return
  | fuel + 1, commands => do
    match commands with
    | [c] => runCommand fuel c
    | _ => runStages fuel commands

/-- Runs commands each of which reads what the one before it prints. -/
def runStages : (fuel : Nat) → List Command → Act Unit
  | 0, _ | _, [] => return
  | fuel + 1, [c] => inSubshell (finishing fuel (runCommand fuel c))
  | fuel + 1, c :: more => do
    let status := (← get).status
    let data ← collecting (finishing fuel (runCommand fuel c))
    let unread := (← get).stdin
    modify fun s => { s with stdin := data, status := status }
    runStages fuel more
    modify fun s => { s with stdin := unread }

/-- Runs a command. -/
def runCommand : (fuel : Nat) → Command → Act Unit
  | 0, _ => return
  | fuel + 1, c => do
    match c with
    | .simple line settings words redirects =>
      modify fun s => { s with line := line }
      runSimple fuel settings words redirects
    | .redirected line body redirects =>
      modify fun s => { s with line := line }
      redirecting fuel false redirects (runCommand fuel body)
    | .group body => runScript fuel body
    | .subshell body => inSubshell (finishing fuel (runScript fuel body))
    | .background body =>
      let unread := (← get).stdin
      modify fun s => { s with stdin := [] }
      inSubshell (finishing fuel (runScript fuel body))
      modify fun s => { s with stdin := unread, status := 0 }
    | .choice branches otherwise => runBranches fuel otherwise branches
    | .loop isUntil condition body => runLoop fuel isUntil condition body 0
    | .each line name words? body =>
      modify fun s => { s with line := line }
      let values? ← match words? with
        | some ws => (fieldsOf ctx (outputOf fuel) ws).run
        | none => pure (.ok (← get).args)
      match values? with
      | .ok values =>
        setStatus 0
        runEach fuel (String.ofList name) body values
      | .error _ => return
    | .cases line w branches =>
      modify fun s => { s with line := line }
      match ← (plainOf ctx (outputOf fuel) w).run with
      | .ok text =>
        setStatus 0
        runCases fuel text.toList branches
      | .error _ => return
    | .define name body =>
      let name := String.ofList name
      modify fun s =>
        { s with functions := (name, body) :: s.functions.filter (·.1 != name), status := 0 }

/-- The output of a nested script. Its status is noted, and the status of the script stays. -/
def outputOf : (fuel : Nat) → List Char → Act Bytes
  | 0, _ => return []
  | fuel + 1, text => do
    let status := (← get).status
    let data ← collecting (notTolerating (finishing fuel (runText fuel text)))
    modify fun s => { s with nested := s.status, status := status }
    return data

/-- Runs the first of branches whose condition succeeds. -/
def runBranches : (fuel : Nat) → (otherwise : Script) → List (Script × Script) → Act Unit
  | 0, _, _ => return
  | fuel + 1, otherwise, [] => do
    setStatus 0
    runScript fuel otherwise
  | fuel + 1, otherwise, (condition, body) :: more => do
    tolerating (runScript fuel condition)
    let s ← get
    if s.jump?.isSome then return
    if s.status = 0 then runScript fuel body else runBranches fuel otherwise more

/-- Runs the rounds of a loop; the last one has left a status. -/
def runLoop : (fuel : Nat) → (isUntil : Bool) → (condition body : Script) → (last : Nat) → Act Unit
  | 0, _, _, _, _ => return
  | fuel + 1, isUntil, condition, body, last => do
    let goesOn ← round (tolerating (runScript fuel condition))
    if !goesOn then return
    if ((← get).status == 0) == isUntil then setStatus last
    else
      let goesOn ← round (runScript fuel body)
      if goesOn then runLoop fuel isUntil condition body (← get).status

/-- Runs the rounds of a loop through values. -/
def runEach : (fuel : Nat) → (name : String) → Script → List String → Act Unit
  | 0, _, _, _ | _, _, _, [] => return
  | fuel + 1, name, body, value :: more => do
    if (← get).isReadOnly name then
      abort ctx (readOnlyText name)
      return
    modify (·.setVariable name value)
    let goesOn ← round (runScript fuel body)
    if goesOn then runEach fuel name body more

/-- Runs the first of branches with a pattern that stands for a text. -/
def runCases : (fuel : Nat) → (text : List Char) → List (List Word × Script) → Act Unit
  | 0, _, _ | _, _, [] => return
  | fuel + 1, text, (patterns, body) :: more => do
    let matching ← (patterns.anyM fun w => do
      return (Pattern.ofText (← textOf ctx (outputOf fuel) wordDepth w)).holds text).run
    match matching with
    | .ok true => runScript fuel body
    | .ok false => runCases fuel text more
    | .error _ => return

/-- Runs commands with other streams. A stream that cannot be opened makes them fail, and the script
too if it `endsAll`. -/
def redirecting : (fuel : Nat) → (endsAll : Bool) → List Redirect → Act Unit → Act Unit
  | 0, _, _, _ => return
  | fuel + 1, endsAll, redirects, act => do
    let before ← get
    if ← openStreams fuel redirects then act
    else
      setStatus 2
      if endsAll then jump (.ended (.exited 2))
    let readsElsewhere := redirects.any fun r => match r with
      | .fromFile _ | .fromText _ => true
      | _ => false
    modify fun s => { s with
      streams := before.streams
      stdin := if readsElsewhere then before.stdin else s.stdin }

/-- Puts other streams in place of those of the session, and says whether that worked. -/
def openStreams : (fuel : Nat) → List Redirect → Act Bool
  | 0, _ | _, [] => return true
  | fuel + 1, r :: more => do
    let w := match r with
      | .toFile _ _ w | .fromFile w | .toStream _ w | .fromText w => w
    match ← (plainOf ctx (outputOf fuel) w).run with
    | .error _ => return false
    | .ok text =>
      let s ← get
      let isOpen ← match r with
        | .toFile fd append _ =>
          match ← openSink ctx append text with
          | some sink =>
            modify (·.setStream fd (some sink))
            pure true
          | none => pure false
        | .toStream fd _ =>
          match text.toList with
          | ['-'] =>
            set (s.setStream fd none)
            pure true
          | ['0'] => pure true
          | [d] =>
            match (Text.digit? 10 d).bind s.sink? with
            | some sink =>
              set (s.setStream fd (some sink))
              pure true
            | none =>
              if d.isDigit then complain ctx (text ++ ": Bad file descriptor")
              else abort ctx badStream
              pure false
          | _ =>
            abort ctx badStream
            pure false
        | .fromText _ =>
          set { s with stdin := Text.utf8 text }
          pure true
        | .fromFile _ =>
          match if text = nullFile then .ok [] else s.files.read s.cwd text with
          | .ok data =>
            set { s with stdin := data }
            pure true
          | .error e =>
            let why := if e = .notFound then "No such file" else reason e
            complain ctx ("cannot open " ++ text ++ ": " ++ why)
            pure false
      if isOpen then openStreams fuel more else return false

/-- Runs a call with its settings and redirections. -/
def runSimple : (fuel : Nat) → List (List Char × Word) → List Word → List Redirect → Act Unit
  | 0, _, _, _ => return
  | fuel + 1, settings, words, redirects => do
    let expansion : Expansion (List String × List (String × String)) := do
      let fields ← fieldsOf ctx (outputOf fuel) words
      let values ← settings.mapM fun (name, w) => do
        return (String.ofList name, ← plainOf ctx (outputOf fuel) w)
      return (fields, values)
    modify fun s => { s with nested := 0 }
    match ← expansion.run with
    | .error _ => return
    | .ok (fields, values) =>
      match (values.map Prod.fst).find? (← get).isReadOnly with
      | some name => abort ctx (readOnlyText name)
      | none =>
        trace values fields
        runFields fuel values redirects fields

/-- Runs a call after its words have given fields. -/
def runFields : (fuel : Nat) → List (String × String) → List Redirect → List String → Act Unit
  | 0, _, _, _ => return
  | fuel + 1, values, redirects, fields => do
    let before ← get
    match fields with
    | [] =>
      redirecting fuel false redirects do
        modify fun s => values.foldl (fun s (name, value) => s.setVariable name value) s
        setStatus before.nested
    | ["exec"] =>
      if ← openStreams fuel redirects then setStatus 0 else jump (.ended (.exited 2))
    | name :: args =>
      let isSpecial := specialBuiltins.contains name
      let prepared := values.foldl (fun (s : Session) (name, value) =>
        (s.setVariable name value).exportVariable name) before
      redirecting fuel isSpecial redirects do
        modify fun s => { s with bindings := prepared.bindings }
        call fuel name args
      let s ← get
      if !isSpecial ∧ !values.isEmpty then
        let kept := s.bindings.filter fun v => values.all (·.1 != v.name)
        let old := before.bindings.filter fun v => values.any (·.1 == v.name)
        modify fun s => { s with bindings := kept ++ old }

/-- Runs a command by its name: one of the shell, a function, or a program. -/
def call : (fuel : Nat) → (name : String) → (args : List String) → Act Unit
  | 0, _, _ => return
  | fuel + 1, name, args => do
    let s ← get
    match name, s.functions.lookup name with
    | "eval", _ =>
      setStatus 0
      runOwned fuel name (" ".intercalate args).toList
    | "exec", _ => replaceBy ctx (args.headD "") args.tail
    | ".", _ =>
      let path := args.headD ""
      if args.isEmpty then setStatus 0
      else if !path.toList.contains '/' then abortAs ctx (some name) (path ++ ": not found")
      else match s.files.read s.cwd path with
        | .ok data =>
          setStatus 0
          runOwned fuel path (Text.ofUtf8Lossy data)
        | .error _ => abortAs ctx (some name) ("cannot open " ++ path ++ ": No such file")
    | "type", _ => describeCommands ctx true args
    | "command", _ =>
      match args with
      | "-v" :: names => describeCommands ctx false names
      | "-V" :: names => describeCommands ctx true names
      | name :: args => call fuel name args
      | [] => setStatus 0
    | _, some body =>
      if specialBuiltins.contains name then runFound ctx name args
      else
        set { s with args := args, loops := 0, saved? := some [] }
        runCommand fuel body
        modify fun r => { r with
          args := s.args
          loops := s.loops
          bindings := (r.saved?.getD []).foldl restored r.bindings
          saved? := s.saved?
          jump? := if r.jump? = some .return then none else r.jump? }
    | _, none => runFound ctx name args

/-- Runs commands and then what they have set a trap for. -/
def finishing : (fuel : Nat) → Act Unit → Act Unit
  | 0, _ => return
  | fuel + 1, act => do
    act
    let s ← get
    match s.traps.lookup Signal.atExit, s.jump?.any Jump.isKilling with
    | some trap, false =>
      set { s with jump? := none, traps := [], status := s.exitCode }
      runText fuel trap.toList
      if (← get).jump?.isNone then setStatus s.exitCode
    | _, _ => return

/-- Runs a script from its text on behalf of a command. -/
def runOwned : (fuel : Nat) → (owner : String) → List Char → Act Unit
  | 0, _, _ => return
  | fuel + 1, owner, text => do
    let s ← get
    set { s with owner? := some owner }
    runText fuel text
    modify fun r => { r with owner? := s.owner? }

/-- Runs a script from its text. -/
def runText : (fuel : Nat) → List Char → Act Unit
  | 0, _ => return
  | fuel + 1, text => runLines fuel (Lexeme.scan text)

/-- Runs the lines of a script. -/
def runLines : (fuel : Nat) → List Lexeme → Act Unit
  | 0, _ => return
  | fuel + 1, ls => do
    match Reader.line?.run ls with
    | .error (line, f) =>
      modify fun s => { s with line := line }
      abort ctx f.message
    | .ok (none, _) => return
    | .ok (some script, rest) =>
      runScript fuel script
      if (← get).jump?.isNone then runLines fuel rest

end

/-- Runs a script and then what it has set a trap for. -/
def runWhole (fuel : Nat) (text : List Char) : Act Unit :=
  finishing ctx fuel (runText ctx fuel text)

end

/-- The greatest number of steps that a script goes through one after the other. -/
def stepBound : Nat := 200000

/-- A script run from its text. -/
def runScriptText (ctx : Context) (s : Session) (text : List Char) : ProgramRun :=
  let ((), s) := (runWhole ctx stepBound text).run s
  let ending := match s.jump? with
    | some (.ended ending) => ending
    | _ => .exited s.status
  ⟨ending, s.stdout.reverse.flatten, s.stderr.reverse.flatten, s.files, s.stdin⟩

/-- The shell: it runs a script given as an argument, in a file, or on what it reads. -/
def shell (programs : Programs) : Program := fun p files =>
  match chooseOptions ['c', 'l'] p.args with
  | .error text => fails p files 2 ("0: " ++ badOption text)
  | .ok r =>
    let start (args : List String) (stdin : Bytes) : Session :=
      .start files p.cwd p.env args stdin (r.on.filter (· ∉ ['c', 'l']))
    match r.on.contains 'c', r.on.contains 's', r.operands with
    | true, _, text :: rest =>
      runScriptText ⟨rest.headD p.name, programs⟩ (start rest.tail p.stdin) text.toList
    | true, _, [] => fails p files 2 "0: -c requires an argument"
    | false, false, path :: args =>
      match files.read p.cwd path with
      | .ok data => runScriptText ⟨path, programs⟩ (start args p.stdin) (Text.ofUtf8Lossy data)
      | .error _ => fails p files 2 ("0: cannot open " ++ path ++ ": No such file")
    | false, _, args => runScriptText ⟨p.name, programs⟩ (start args []) (Text.ofUtf8Lossy p.stdin)

end TiBench.Shell
