import TiBench.Cli.Arguments

/-!
# Commands

What the command line asks for: one of several commands with its parameters.
-/

namespace TiBench.Cli

/-- How two artifacts are compared. -/
inductive Comparison where
  | bytes (mask : Option String) (tolerance : Nat)
  /-- As text, the first characters of each line. -/
  | text (width : Nat)
deriving DecidableEq, Repr

/-- Which scenarios are run. -/
inductive RunMode where
  | exhaustive
  | random
  | errors
deriving DecidableEq, Repr

/-- What is done. -/
inductive Command where
  /-- Prints the image of a chunk. -/
  | chunk (index capacity : Nat) (base : Option String)
  /-- Prints a random image. -/
  | block (seed size : Nat) (base : Option String)
  | makeDisk (disk volume : String) (sectors sides density : Nat)
  | catalog (disk : String)
  | put (disk file format : String)
  | get (disk file : String)
  | delete (disk file : String)
  | rename (disk file name : String)
  | protect (disk file : String) (on : Bool)
  | compare (reference result : String) (how : Comparison)
  | run (config : String) (mode : RunMode)
  /-- Prints a completion script for a shell. -/
  | completions (shell : String)
deriving DecidableEq, Repr

/-- The files that a command names. -/
def Command.files : Command → List String
  | .chunk .. | .block .. | .completions _ => []
  | .makeDisk disk .. | .catalog disk | .put disk .. | .get disk _ | .delete disk _
  | .rename disk .. | .protect disk .. => [disk]
  | .compare reference result _ => [reference, result]
  | .run config _ => [config]

/-- Whether a command takes what there is to read. -/
def Command.readsInput : Command → Bool
  | .put .. => true
  | _ => false

/-- What the arguments ask for. -/
inductive Request where
  | command (c : Command)
  /-- There is no command. -/
  | nothing
  | version
deriving DecidableEq, Repr

namespace Command

/-- The option for the image of a disk. -/
def diskOption : OptionSpec := ⟨"dimg", some 'd', some .text⟩

/-- The option for a file on a disk. -/
def fileOption : OptionSpec := ⟨"file", some 'f', some .text⟩

/-- The value of an option that must be given. -/
def required (m : Matches) (name : String) : Except Refusal String :=
  match m.get? name with
  | some value => .ok value
  | none => .error .usage

/-- The modes of generating images. -/
def imageModes : List String := ["exhaustive", "random"]

/-- The modes of running scenarios. -/
def runModes : List (String × RunMode) :=
  [("exhaustive", .exhaustive), ("random", .random), ("errors", .errors)]

/-- The shells for which there are completion scripts. -/
def shells : List String := ["bash", "elv", "fish", "ps1", "zsh"]

/-- The command that prints an image. -/
def parseGenerate (args : List String) : Except Refusal Command := do
  let m ← matchArguments
    ⟨[⟨"mode", some 'm', some (.choice imageModes)⟩, ⟨"index", some 'i', some .count⟩,
      ⟨"seed", some 's', some .count⟩, ⟨"capacity", some 'c', some .count⟩,
      ⟨"size", none, some .count⟩, ⟨"base", some 'b', some .text⟩], 0⟩ args
  match ← required m "mode", m.number? "index", m.number? "seed" with
  | "exhaustive", some index, _ =>
    return .chunk index ((m.number? "capacity").getD 8192) (m.get? "base")
  | "random", _, some seed => return .block seed ((m.number? "size").getD 2048) (m.get? "base")
  | _, _, _ => .error .usage

/-- The command that makes a blank disk. -/
def parseMakeDisk (args : List String) : Except Refusal Command := do
  let m ← matchArguments
    ⟨[⟨"volume", some 'v', some .text⟩, ⟨"sectors", some 's', some (.number 34 1600)⟩,
      ⟨"sides", none, some (.number 1 2)⟩, ⟨"density", none, some (.number 1 3)⟩, diskOption], 0⟩
    args
  return .makeDisk (← required m "dimg") (← required m "volume")
    ((m.number? "sectors").getD 360) ((m.number? "sides").getD 1) ((m.number? "density").getD 1)

/-- The command that shows a catalog. -/
def parseCatalog (args : List String) : Except Refusal Command := do
  let m ← matchArguments ⟨[diskOption], 0⟩ args
  return .catalog (← required m "dimg")

/-- The command that puts a file on a disk. -/
def parsePut (args : List String) : Except Refusal Command := do
  let m ← matchArguments ⟨[fileOption, ⟨"type", some 't', some .text⟩, diskOption], 0⟩ args
  return .put (← required m "dimg") (← required m "file") (← required m "type")

/-- A command that needs a disk and a file on it. -/
def parseFile (make : (disk file : String) → Command) (args : List String) :
    Except Refusal Command := do
  let m ← matchArguments ⟨[fileOption, diskOption], 0⟩ args
  return make (← required m "dimg") (← required m "file")

/-- The command that gives a file another name. -/
def parseRename (args : List String) : Except Refusal Command := do
  let m ← matchArguments ⟨[fileOption, ⟨"name", some 'n', some .text⟩, diskOption], 0⟩ args
  return .rename (← required m "dimg") (← required m "file") (← required m "name")

/-- The command that sets or takes off a protection. -/
def parseProtect (args : List String) : Except Refusal Command := do
  let m ← matchArguments ⟨[fileOption, ⟨"off", none, none⟩, diskOption], 0⟩ args
  return .protect (← required m "dimg") (← required m "file") (m.get? "off").isNone

/-- The command that compares two artifacts. A mask and a width exclude each other. -/
def parseCompare (args : List String) : Except Refusal Command := do
  let m ← matchArguments
    ⟨[⟨"mask", some 'm', some .text⟩, ⟨"tolerance", none, some .count⟩,
      ⟨"text", none, some .count⟩], 2⟩ args
  let tolerance := (m.number? "tolerance").getD 0
  match m.operands, m.number? "text", m.get? "mask" with
  | [reference, result], some width, none => return .compare reference result (.text width)
  | [reference, result], none, mask? => return .compare reference result (.bytes mask? tolerance)
  | _, _, _ => .error .usage

/-- The command that runs scenarios. -/
def parseRun (args : List String) : Except Refusal Command := do
  let m ← matchArguments
    ⟨[⟨"config", some 'c', some .text⟩, ⟨"mode", some 'm', some (.choice (runModes.map Prod.fst))⟩],
      0⟩ args
  let config ← required m "config"
  return .run config (((m.get? "mode").bind (List.lookup · runModes)).getD .random)

/-- The command that prints a completion script. -/
def parseCompletions (args : List String) : Except Refusal Command := do
  let m ← matchArguments ⟨[⟨"shell", some 's', some (.choice shells)⟩], 0⟩ args
  return .completions (← required m "shell")

/-- The names of the commands, each with what reads its arguments. -/
def table : List (List String × (List String → Except Refusal Command)) :=
  [(["gen"], parseGenerate), (["mkdsk"], parseMakeDisk), (["catalog", "cat"], parseCatalog),
    (["put"], parsePut), (["get"], parseFile .get), (["delete", "del"], parseFile .delete),
    (["rename"], parseRename), (["protect"], parseProtect), (["cmp"], parseCompare),
    (["run"], parseRun), (["completions"], parseCompletions)]

/-- What reads the arguments of a command. -/
def reader? (name : String) : Option (List String → Except Refusal Command) :=
  (table.find? (·.1.contains name)).map Prod.snd

end Command

namespace Request

/-- The request for an explanation: of all, or of one command. -/
def parseHelp : List String → Except Refusal Request
  | [] => .error .help
  | [name] =>
    if name = "help" ∨ (Command.reader? name).isSome then .error .help else .error .usage
  | _ => .error .usage

/-- What arguments ask for. -/
def parse : List String → Except Refusal Request
  | [] => .ok .nothing
  | ["--"] => .ok .nothing
  | "--help" :: _ => .error .help
  | "--version" :: _ => .ok .version
  | "help" :: rest => parseHelp rest
  | name :: rest =>
    match name.toList, Command.reader? name with
    | '-' :: 'h' :: _, _ => .error .help
    | '-' :: 'V' :: _, _ => .ok .version
    | _, some read => (read rest).map .command
    | _, none => .error .usage

end Request

end TiBench.Cli
