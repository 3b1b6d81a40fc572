import TiBench.Pieces
import TiBench.Text.Number

/-!
# Command line arguments

Options and operands among the arguments of a command. An option is written `--name value`,
`--name=value`, `-n value`, `-nvalue` or `-n=value`, and only once; what starts with a hyphen is not
taken for a value. After `--` there are operands only. Arguments are read in order, each value is
checked when it is met, and the first argument that is wrong or asks for help decides.
-/

namespace TiBench.Cli

/-- The values that an option takes. -/
inductive ValueKind where
  | text
  /-- A number in a range, the ends of which belong to it. -/
  | number (low high : Nat)
  | choice (names : List String)
deriving DecidableEq, Repr

namespace ValueKind

/-- Any number of 64 bits. -/
def count : ValueKind := .number 0 (Text.bound64 - 1)

/-- Whether a text is a value of the kind. -/
def accepts : ValueKind → String → Bool
  | .text, _ => true
  | .number low high, value =>
    (Text.number? 10 Text.bound64 value.toList).any fun n => low ≤ n ∧ n ≤ high
  | .choice names, value => names.contains value

end ValueKind

/-- An option of a command. -/
structure OptionSpec where
  name : String
  short? : Option Char
  /-- The values that the option takes. A switch takes none. -/
  kind? : Option ValueKind

/-- The switch that asks for an explanation. -/
def helpSwitch : OptionSpec := ⟨"help", some 'h', none⟩

/-- What a command takes. -/
structure Grammar where
  options : List OptionSpec
  /-- The greatest number of operands. -/
  operands : Nat

/-- The options given, with their values, and the operands. -/
structure Matches where
  options : List (String × String)
  operands : List String

/-- Why the arguments of a command do not give what it takes. -/
inductive Refusal where
  /-- The arguments ask for an explanation of the command. -/
  | help
  | usage
deriving DecidableEq, Repr

namespace Matches

/-- The value of an option. -/
def get? (m : Matches) (name : String) : Option String :=
  (m.options.find? (·.1 == name)).map Prod.snd

/-- The number that an option gives, if it is given. -/
def number? (m : Matches) (name : String) : Option Nat :=
  (m.get? name).bind fun value => Text.number? 10 Text.bound64 value.toList

/-- One option more, which must not have been given before. -/
def add (m : Matches) (spec : OptionSpec) (value : String) : Except Refusal Matches :=
  if (m.get? spec.name).isSome ∨ !spec.kind?.all (·.accepts value) then .error .usage
  else .ok { m with options := m.options ++ [(spec.name, value)] }

/-- One operand more, if the command takes it. -/
def addOperand (g : Grammar) (m : Matches) (value : String) : Except Refusal Matches :=
  if m.operands.length < g.operands then .ok { m with operands := m.operands ++ [value] }
  else .error .usage

end Matches

/-- An argument, taken apart. -/
inductive Argument where
  /-- From here on there are operands only. -/
  | stop
  /-- An option with the value that is part of the same argument, if there is one. -/
  | option (spec : OptionSpec) (value? : Option String)
  | operand (text : String)

/-- The value after an equals sign. -/
def afterEquals (s : List Char) : List Char :=
  match s with
  | '=' :: value => value
  | _ => s

/-- What an argument is. The only switch with a letter asks for help, so what follows it in its
argument does not matter. -/
def Argument.parse (g : Grammar) (arg : String) : Except Refusal Argument :=
  match arg.toList with
  | ['-', '-'] => .ok .stop
  | '-' :: '-' :: body =>
    let (name, value?) := match Pieces.splitOnce (· == '=') body with
      | some (name, value) => (String.ofList name, some (String.ofList value))
      | none => (String.ofList body, none)
    match (helpSwitch :: g.options).find? (·.name == name) with
    | some spec => .ok (.option spec value?)
    | none => .error .usage
  | '-' :: c :: rest =>
    match (helpSwitch :: g.options).find? (·.short? == some c) with
    | some spec =>
      let hasValue := spec.kind?.isSome ∧ !rest.isEmpty
      .ok (.option spec (if hasValue then some (.ofList (afterEquals rest)) else none))
    | none => .error .usage
  | _ => .ok (.operand arg)

/-- Whether an argument can be the value of the option before it. -/
def isValue (arg : String) : Bool := arg == "-" || arg.toList.head? != some '-'

/-- What the next argument may be. -/
inductive Awaited where
  | any
  /-- The value of an option. -/
  | value (spec : OptionSpec)
  /-- An operand, whatever it looks like. -/
  | operand

/-- How far arguments have been read. -/
structure Reading where
  found : Matches
  awaited : Awaited

namespace Reading

/-- After an option or an operand. -/
def take (g : Grammar) (m : Matches) : Argument → Except Refusal Reading
  | .stop => .ok ⟨m, .operand⟩
  | .operand text => (m.addOperand g text).map (⟨·, .any⟩)
  | .option spec value? =>
    match spec.kind?, value? with
    | none, none =>
      if spec.name = helpSwitch.name then .error .help else (m.add spec "").map (⟨·, .any⟩)
    | none, some _ => .error .usage
    | some _, some value => (m.add spec value).map (⟨·, .any⟩)
    | some _, none => .ok ⟨m, .value spec⟩

/-- After one more argument. -/
def step (g : Grammar) (r : Reading) (arg : String) : Except Refusal Reading :=
  match r.awaited with
  | .operand => (r.found.addOperand g arg).map (⟨·, .operand⟩)
  | .value spec =>
    if isValue arg then (r.found.add spec arg).map (⟨·, .any⟩) else .error .usage
  | .any => (Argument.parse g arg).bind (take g r.found)

/-- What was found, if nothing is missing. -/
def finish (r : Reading) : Except Refusal Matches :=
  match r.awaited with
  | .value _ => .error .usage
  | _ => .ok r.found

end Reading

/-- The options and operands in arguments. -/
def matchArguments (g : Grammar) (args : List String) : Except Refusal Matches := do
  (← args.foldlM (Reading.step g) ⟨⟨[], []⟩, .any⟩).finish

end TiBench.Cli
