import TiBench.Shell.Print

/-!
# Conditions

The conditions on texts, numbers and files that `test` checks.
-/

namespace TiBench.Shell

/-- Whether a path leads to a directory. -/
def isDirectory (files : FileTree) (cwd : Path) (path : String) : Bool :=
  (files.locate cwd path).toOption.any fun p => files.get? p = some .directory

/-- A condition on one text, by its sign. -/
def unaryCondition? (files : FileTree) (cwd : Path) (sign text : String) : Option Bool :=
  match sign with
  | "-n" => some (text ≠ "")
  | "-z" => some (text = "")
  | "-e" | "-r" | "-w" => some (files.hasPath cwd text)
  | "-f" => some (files.read cwd text).isOk
  | "-d" | "-x" => some (isDirectory files cwd text)
  | "-s" =>
    some (isDirectory files cwd text || (files.read cwd text).toOption.any (!·.isEmpty))
  | "-h" | "-L" | "-t" | "-p" | "-S" | "-b" | "-c" | "-g" | "-u" | "-k" => some false
  | _ => none

/-- The number that an operand writes. -/
def operandNumber (text : String) : Except String Int :=
  match (String.ofList (Text.trim text.toList)).toInt? with
  | some n => .ok n
  | none =>
    match Text.number? 10 Text.bound64 (Text.trim text.toList) with
    | some n => .ok n
    | none => .error ("Illegal number: " ++ text)

/-- A condition on two texts, by its sign. -/
def binaryCondition? (sign a b : String) : Option (Except String Bool) :=
  let numbers (f : Int → Int → Bool) : Option (Except String Bool) := some do
    return f (← operandNumber a) (← operandNumber b)
  match sign with
  | "=" => some (.ok (a = b))
  | "!=" => some (.ok (a ≠ b))
  | "<" => some (.ok (a < b))
  | ">" => some (.ok (b < a))
  | "-eq" => numbers (· == ·)
  | "-ne" => numbers (· != ·)
  | "-lt" => numbers (· < ·)
  | "-le" => numbers (· ≤ ·)
  | "-gt" => numbers (· > ·)
  | "-ge" => numbers (· ≥ ·)
  | _ => none

/-- The signs that join conditions or group them. -/
def otherSigns : List String := ["!", "(", ")", "-a", "-o"]

/-- The signs of conditions on two texts. -/
def binarySigns : List String :=
  ["=", "!=", "<", ">", "-eq", "-ne", "-lt", "-le", "-gt", "-ge", "-nt", "-ot", "-ef"]

/-- The signs of conditions on one text. -/
def unarySigns : List String :=
  ["-n", "-z", "-e", "-r", "-w", "-f", "-d", "-x", "-s", "-h", "-L", "-t", "-p", "-S", "-b", "-c",
    "-g", "-u", "-k", "-O", "-G"]

/-- The sign that starts arguments, if it is read as one. The sign of a condition on one text is an
operand where nothing follows it, or the sign of a condition on two texts and one more. -/
def signOf? (args : List String) : Option String :=
  match args with
  | [] => none
  | sign :: more =>
    let isOperand := match more with
      | [] => true
      | [_] => false
      | next :: _ :: _ => binarySigns.contains next
    if unarySigns.contains sign then if isOperand then none else some sign
    else if sign = "(" ∧ more.isEmpty then none
    else if binarySigns.contains sign ∨ otherSigns.contains sign then some sign
    else none

section

variable (files : FileTree) (cwd : Path)

mutual

/-- Whether one of conditions joined by `-o` holds, and the arguments from the last one on that has
been read. -/
def holdsAny : (fuel : Nat) → (sign? : Option String) → List String →
    Except String (Bool × List String)
  | 0, _, args => .ok (false, args)
  | fuel + 1, sign?, args => do
    let (b, args) ← holdsAll fuel sign? args
    if signOf? args.tail = some "-o" then
      let args := args.drop 2
      let (c, args) ← holdsAny fuel (signOf? args) args
      return (b || c, args)
    return (b, args)

/-- Whether all of conditions joined by `-a` hold. -/
def holdsAll : (fuel : Nat) → (sign? : Option String) → List String →
    Except String (Bool × List String)
  | 0, _, args => .ok (false, args)
  | fuel + 1, sign?, args => do
    let (b, args) ← holdsOne fuel sign? args
    if signOf? args.tail = some "-a" then
      let args := args.drop 2
      let (c, args) ← holdsAll fuel (signOf? args) args
      return (b && c, args)
    return (b, args)

/-- Whether a condition holds that is not joined to others. -/
def holdsOne : (fuel : Nat) → (sign? : Option String) → List String →
    Except String (Bool × List String)
  | 0, _, args => .ok (false, args)
  | fuel + 1, sign?, args => do
    match sign?, args with
    | _, [] => return (false, [])
    | some "!", _ :: more =>
      let (b, args) ← holdsOne fuel (signOf? more) (if more.isEmpty then args else more)
      return (!b, args)
    | some "(", _ :: more =>
      if signOf? more = some ")" then return (false, more)
      let (b, args) ← holdsAny fuel (signOf? more) more
      if signOf? args.tail = some ")" then return (b, args.tail)
      throw "closing paren expected"
    | sign?, a :: more =>
      match sign?.filter unarySigns.contains, more with
      | some sign, [] => throw (sign ++ ": argument expected")
      | some sign, b :: _ => return ((unaryCondition? files cwd sign b).getD false, more)
      | none, _ =>
        match (signOf? more).filter binarySigns.contains, more.tail with
        | some sign, [] => throw (sign ++ ": argument expected")
        | some sign, b :: _ =>
          return (← (binaryCondition? sign a b).getD (.ok false), more.tail)
        | none, _ => return (a ≠ "", args)

end

/-- Whether a condition holds, or what is wrong with it. Three and four arguments are read by their
number first. -/
def holds : (args : List String) → Except String Bool
  | [] => .ok false
  | args =>
    match args with
    | [a, sign, b] =>
      if binarySigns.contains sign then read none [a, sign, b]
      else if a = "(" ∧ b = ")" then read (signOf? [sign]) [sign]
      else if a = "!" then (holds [sign, b]).map (!·)
      else read (signOf? args) args
    | [a, b, c, d] =>
      if a = "(" ∧ d = ")" then read (signOf? [b, c]) [b, c]
      else if a = "!" then (holds [b, c, d]).map (!·)
      else read (signOf? args) args
    | _ => read (signOf? args) args
where
  /-- Whether the condition holds that all arguments make up. -/
  read (sign? : Option String) (args : List String) : Except String Bool := do
    let (b, rest) ← holdsAny files cwd (4 * args.length + 4) sign? args
    match rest with
    | last :: _ :: _ => throw (last ++ ": unexpected operator")
    | _ => return b

end

/-- The program that succeeds if a condition holds. -/
def test : Program := fun p files =>
  let check (args : List String) : ProgramRun :=
    match holds files p.cwd args with
    | .ok b => prints p files (if b then 0 else 1) [] []
    | .error text => fails p files 2 text
  if p.name.toList.getLast? = some '[' then
    if p.args.getLast? = some "]" then check p.args.dropLast else fails p files 2 "missing ]"
  else check p.args

end TiBench.Shell
