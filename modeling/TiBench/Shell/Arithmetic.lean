import TiBench.Text.Number

/-!
# Arithmetic

The integer expressions of shell scripts. Numbers have 64 bits with a sign and wrap around; a
variable counts as zero unless it holds a number.
-/

namespace TiBench.Shell.Arithmetic

/-- Why an expression has no value. -/
inductive Failure where
  | divisionByZero
  | noOperand
  | noEnd
  | noParenthesis
  | noColon
  /-- A variable holds something else than a number. -/
  | badNumber (text : List Char)
deriving DecidableEq, Repr

/-- The wording of a failure in an expression. -/
def Failure.message (e : List Char) (f : Failure) : String :=
  let about (text : String) := "arithmetic expression: " ++ text ++ ": \"" ++ .ofList e ++ "\""
  match f with
  | .divisionByZero => about "division by zero"
  | .noOperand => about "expecting primary"
  | .noEnd => about "expecting EOF"
  | .noParenthesis => about "expecting ')'"
  | .noColon => about "expecting ':'"
  | .badNumber text => "Illegal number: " ++ .ofList text

/-- A number, a name or a sign. -/
inductive Symbol where
  | number (n : Nat)
  | name (s : List Char)
  | sign (s : List Char)
deriving DecidableEq, Repr

/-- An expression. -/
inductive Formula where
  | number (n : Int)
  | name (s : List Char)
  | unary (op : Char) (e : Formula)
  | binary (op : List Char) (a b : Formula)
  | both (a b : Formula)
  | either (a b : Formula)
  /-- A variable gets a value, by an operator on the one that it has if there is an operator. -/
  | assign (s : List Char) (op? : Option (List Char)) (e : Formula)
  | choose (condition a b : Formula)
deriving DecidableEq, Repr

/-- A character of the name of a variable. -/
def isNameChar (c : Char) : Bool := c.isAlphanum || c == '_'

/-- Whether a text could be the name of a variable. -/
def isName (s : List Char) : Bool :=
  !s.isEmpty && s.all isNameChar && !s.head?.any Char.isDigit

/-- The number in a base that starts a text, and what follows it. -/
def spanNumber (base : Nat) (s : List Char) : Symbol × List Char :=
  let digits := s.takeWhile fun c => (Text.digit? base c).isSome
  (.number ((Text.digits? base digits).getD 0), s.drop digits.length)

/-- The signs of more than one character, longer ones first. -/
def longSigns : List (List Char) :=
  ["<<=", ">>=", "&&", "||", "<<", ">>", "<=", ">=", "==", "!=", "+=", "-=", "*=", "/=", "%=", "&=",
    "^=", "|="].map String.toList

/-- The symbol at the start of a text, and what follows it. -/
def symbol (c : Char) (rest : List Char) : Symbol × List Char :=
  match c, rest with
  | '0', 'x' :: rest | '0', 'X' :: rest => spanNumber 16 rest
  | '0', _ => spanNumber 8 (c :: rest)
  | _, _ =>
    if c.isDigit then spanNumber 10 (c :: rest)
    else if isNameChar c then
      let s := (c :: rest).takeWhile isNameChar
      (.name s, (c :: rest).drop s.length)
    else
      let s := (longSigns.find? (·.isPrefixOf (c :: rest))).getD [c]
      (.sign s, (c :: rest).drop s.length)

/-- The symbols of a text of at most `fuel` characters. -/
def symbols : (fuel : Nat) → List Char → List Symbol
  | 0, _ | _, [] => []
  | fuel + 1, c :: rest =>
    if c ∈ [' ', '\t', '\n'] then symbols fuel rest
    else
      let (s, rest) := symbol c rest
      s :: symbols fuel rest

/-- How tightly a sign between two operands binds. -/
def level? (sign : List Char) : Option Nat :=
  ([["||"], ["&&"], ["|"], ["^"], ["&"], ["==", "!="], ["<", ">", "<=", ">="], ["<<", ">>"],
    ["+", "-"], ["*", "/", "%"]].map (·.map String.toList)).findIdx? (·.contains sign)

/-- The operator of a sign that assigns a value, if it is one. -/
def assigning? (sign : List Char) : Option (Option (List Char)) :=
  if sign = ['='] then some none
  else if sign.length = 1 ∨ sign.getLast? ≠ some '=' then none
  else if (level? sign).isSome then none
  else some (some sign.dropLast)

/-- The expression of a sign between two operands. -/
def Formula.ofSign (sign : List Char) (a b : Formula) : Formula :=
  if sign = ['&', '&'] then .both a b
  else if sign = ['|', '|'] then .either a b
  else .binary sign a b

mutual

/-- An operand, and what follows it. -/
def operand : (fuel : Nat) → List Symbol → Except Failure (Formula × List Symbol)
  | 0, _ => .error .noOperand
  | fuel + 1, s =>
    match s with
    | .number n :: rest => .ok (.number n, rest)
    | .name v :: rest => .ok (.name v, rest)
    | .sign ['('] :: rest => do
      match ← whole fuel rest with
      | (e, .sign [')'] :: rest) => return (e, rest)
      | _ => .error .noParenthesis
    | .sign [c] :: rest =>
      if c ∈ ['+', '-', '!', '~'] then do
        let (e, rest) ← operand fuel rest
        return (.unary c e, rest)
      else .error .noOperand
    | _ => .error .noOperand

/-- Operands between signs that bind at least as tightly as a level. -/
def operation : (fuel : Nat) → (level : Nat) → List Symbol → Except Failure (Formula × List Symbol)
  | 0, _, _ => .error .noOperand
  | fuel + 1, level, s => do
    let (a, rest) ← operand fuel s
    operationAfter fuel level a rest

/-- As `operation`, after the operands in `a`. -/
def operationAfter :
    (fuel : Nat) → (level : Nat) → Formula → List Symbol → Except Failure (Formula × List Symbol)
  | fuel + 1, level, a, .sign sign :: rest =>
    match level? sign with
    | none => .ok (a, .sign sign :: rest)
    | some l =>
      if l < level then .ok (a, .sign sign :: rest)
      else do
        let (b, rest) ← operation fuel (l + 1) rest
        operationAfter fuel level (.ofSign sign a b) rest
  | _, _, a, rest => .ok (a, rest)

/-- An expression that is no assignment. -/
def choice : (fuel : Nat) → List Symbol → Except Failure (Formula × List Symbol)
  | 0, _ => .error .noOperand
  | fuel + 1, s => do
    match ← operation fuel 0 s with
    | (c, .sign ['?'] :: rest) =>
      match ← whole fuel rest with
      | (a, .sign [':'] :: rest) =>
        let (b, rest) ← choice fuel rest
        return (.choose c a b, rest)
      | _ => .error .noColon
    | r => return r

/-- A whole expression, and what follows it. -/
def whole : (fuel : Nat) → List Symbol → Except Failure (Formula × List Symbol)
  | 0, _ => .error .noOperand
  | fuel + 1, s =>
    match s with
    | .name v :: .sign sign :: rest =>
      match assigning? sign with
      | some op? => do
        let (e, rest) ← whole fuel rest
        return (.assign v op? e, rest)
      | none => choice fuel s
    | _ => choice fuel s

end

/-- The expression that a text writes. -/
def Formula.parse (s : List Char) : Except Failure Formula := do
  let all := symbols s.length s
  match ← whole (6 * all.length + 6) all with
  | (e, []) => return e
  | _ => .error .noEnd

/-- The number of integers in 64 bits. -/
def wrapBound : Nat := 18446744073709551616

/-- A truth value as a number. -/
def truth (b : Bool) : Int := if b then 1 else 0

/-- The value of an operation on one number. -/
def applyUnary (op : Char) (n : Int) : Int :=
  match op with
  | '-' => Int.bmod (-n) wrapBound
  | '!' => truth (n == 0)
  | '~' => -n - 1
  | _ => n

/-- The number that two numbers give bit by bit. -/
def bitwise (f : UInt64 → UInt64 → UInt64) (a b : Int) : Int :=
  (f (UInt64.ofNat (a % wrapBound).toNat) (UInt64.ofNat (b % wrapBound).toNat)).toInt64.toInt

/-- The value of an operation on two numbers. -/
def applyBinary (op : List Char) (a b : Int) : Except Failure Int :=
  match op with
  | ['+'] => .ok (Int.bmod (a + b) wrapBound)
  | ['-'] => .ok (Int.bmod (a - b) wrapBound)
  | ['*'] => .ok (Int.bmod (a * b) wrapBound)
  | ['/'] => if b = 0 then .error .divisionByZero else .ok (Int.bmod (a.tdiv b) wrapBound)
  | ['%'] => if b = 0 then .error .divisionByZero else .ok (a.tmod b)
  | ['<'] => .ok (truth (a < b))
  | ['>'] => .ok (truth (b < a))
  | ['<', '='] => .ok (truth (a ≤ b))
  | ['>', '='] => .ok (truth (b ≤ a))
  | ['=', '='] => .ok (truth (a == b))
  | ['!', '='] => .ok (truth (a != b))
  | ['&'] => .ok (bitwise (· &&& ·) a b)
  | ['|'] => .ok (bitwise (· ||| ·) a b)
  | ['^'] => .ok (bitwise (· ^^^ ·) a b)
  | ['<', '<'] => .ok (bitwise (· <<< ·) a b)
  | ['>', '>'] => .ok (a >>> (b % 64).toNat)
  | _ => .error .noOperand

/-- The values of variables that an expression has set, the last one first. -/
abbrev Settings := List (List Char × Int)

/-- The value of an expression and the settings after it. -/
def Formula.eval (get : List Char → Except Failure Int) :
    Formula → Settings → Except Failure (Int × Settings)
  | .number n, vars => .ok (min n (wrapBound / 2 - 1), vars)
  | .name s, vars =>
    match vars.lookup s with
    | some n => .ok (n, vars)
    | none => (get s).map (·, vars)
  | .unary op e, vars => do
    let (n, vars) ← e.eval get vars
    return (applyUnary op n, vars)
  | .binary op a b, vars => do
    let (m, vars) ← a.eval get vars
    let (n, vars) ← b.eval get vars
    return (← applyBinary op m n, vars)
  | .both a b, vars => do
    let (m, vars) ← a.eval get vars
    if m = 0 then return (0, vars)
    let (n, vars) ← b.eval get vars
    return (truth (n != 0), vars)
  | .either a b, vars => do
    let (m, vars) ← a.eval get vars
    if m ≠ 0 then return (1, vars)
    let (n, vars) ← b.eval get vars
    return (truth (n != 0), vars)
  | .assign s op? e, vars => do
    let (n, vars) ← e.eval get vars
    let n ← match op? with
      | none => .ok n
      | some op => do
        let old ← match vars.lookup s with
          | some old => .ok old
          | none => get s
        applyBinary op old n
    return (n, (s, n) :: vars)
  | .choose c a b, vars => do
    let (m, vars) ← c.eval get vars
    if m ≠ 0 then a.eval get vars else b.eval get vars

/-- The number that a variable holds: in decimal, octal after a zero, or hexadecimal. -/
def numberOf (value : List Char) : Except Failure Int :=
  let (sign, body) := match value.dropWhile (· == ' ') with
    | '-' :: body => (-1, body)
    | '+' :: body => (1, body)
    | body => ((1 : Int), body)
  match symbols body.length body with
  | [.number n] => .ok (Int.bmod (sign * n) wrapBound)
  | [] => if value.all (· == ' ') then .ok 0 else .error (.badNumber value)
  | _ => .error (.badNumber value)

end TiBench.Shell.Arithmetic
