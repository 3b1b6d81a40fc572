import TiBench.Shell.Lexeme

/-!
# The grammar of scripts

Reading commands from lexemes. A script is read line by line, for its lines run before what follows
them is looked at; a compound command may extend over several lines.
-/

namespace TiBench.Shell

/-- What is left of the lexemes while commands are read. A fault is found on a line. -/
abbrev Reader := StateT (List Lexeme) (Except (Nat × Fault))

/-- The words that have a meaning of their own at the start of a command. -/
def keywords : List String :=
  ["!", "case", "do", "done", "elif", "else", "esac", "fi", "for", "if", "in", "then", "until",
    "while", "\x7b", "\x7d"]

/-- The commands that are part of the language. Settings before them stay, a redirection that fails
ends the script, and no function can have such a name. -/
def specialBuiltins : List String :=
  [":", ".", "break", "continue", "eval", "exec", "exit", "export", "local", "readonly", "return",
    "set", "shift", "times", "trap", "unset"]

/-- The keywords that end a list of commands. -/
def closingWords : List String := ["do", "done", "elif", "else", "esac", "fi", "then", "\x7d"]

namespace Token

/-- The keyword that a token is, if it is one. -/
def keyword? : Token → Option String
  | .word [.text s false] => keywords.find? (·.toList == s)
  | _ => none

/-- The name that a token is, if it could be that of a variable or a command. -/
def name? : Token → Option (List Char)
  | .word [.text s false] => if Arithmetic.isName s then some s else none
  | _ => none

/-- A token as faults call it. -/
def shown (t : Token) : String :=
  match t with
  | .word _ =>
    match t.keyword? with
    | some k => "\"" ++ k ++ "\""
    | none => "word"
  | .operator .newline => "newline"
  | .operator .semicolon => "\";\""
  | .operator .background => "\"&\""
  | .operator .andIf => "\"&&\""
  | .operator .orIf => "\"||\""
  | .operator .pipe => "\"|\""
  | .operator .opening => "\"(\""
  | .operator .closing => "\")\""
  | .operator .endBranch => "\";;\""
  | .redirect _ | .fullRedirect _ => "redirection"
  | .fault _ | .stop => "end of file"

/-- Whether a list of commands ends before a token. -/
def endsList (t : Token) : Bool :=
  match t with
  | .operator .closing | .operator .endBranch | .stop => true
  | _ => t.keyword?.any closingWords.contains

end Token

namespace Reader

/-- The next lexeme, which stays. -/
def peek : Reader Lexeme := do return (← get).headD ⟨.stop, 1⟩

/-- The next lexeme, which is taken. -/
def next : Reader Lexeme := do
  let l ← peek
  modify List.tail
  return l

/-- The next token cannot stand where it does. The end of a line counts to the line after it. -/
def unexpected {α : Type} (expected? : Option String) : Reader α := do
  let l ← peek
  match l.token with
  | .fault f => throw (l.line, f)
  | .operator .newline => throw (l.line + 1, .unexpected l.token.shown expected?)
  | t => throw (l.line, .unexpected t.shown expected?)

/-- Takes an operator if it is next. -/
def takes (o : Operator) : Reader Bool := do
  match (← peek).token with
  | .operator p => if p = o then modify List.tail; return true else return false
  | _ => return false

/-- Takes an operator. -/
def expect (o : Operator) : Reader Unit := do
  unless ← takes o do unexpected (some (Token.operator o).shown)

/-- Takes a closing parenthesis where keywords are plain words. -/
def expectClosing : Reader Unit := do
  match (← peek).token with
  | .word _ => throw ((← peek).line, .unexpected "word" (some (Token.operator .closing).shown))
  | _ => expect .closing

/-- Takes a keyword if it is next. -/
def takesWord (k : String) : Reader Bool := do
  if (← peek).token.keyword? = some k then modify List.tail; return true else return false

/-- Takes a keyword. -/
def expectWord (k : String) : Reader Unit := do
  unless ← takesWord k do unexpected (some ("\"" ++ k ++ "\""))

/-- Takes the ends of lines that are next. -/
def skipLines : Reader Unit :=
  modify fun ls => ls.dropWhile fun l => match l.token with
    | .operator .newline => true
    | _ => false

/-- The word that is next. -/
def word (expected? : Option String) : Reader Word := do
  match (← peek).token with
  | .word w => modify List.tail; return w
  | _ => unexpected expected?

/-- The redirections that are next, at most `fuel` of them. -/
def redirects : (fuel : Nat) → Reader (List Redirect)
  | 0 => return []
  | fuel + 1 => do
    match (← peek).token with
    | .redirect make =>
      modify List.tail
      let w ← word none
      return make w :: (← redirects fuel)
    | .fullRedirect r =>
      modify List.tail
      return r :: (← redirects fuel)
    | _ => return []

/-- The words up to the next symbol, at most `fuel` of them. -/
def words : (fuel : Nat) → Reader (List Word)
  | 0 => return []
  | fuel + 1 => do
    match (← peek).token with
    | .word w =>
      modify List.tail
      return w :: (← words fuel)
    | _ => return []

/-- The setting of a variable that a word is, if it is one. -/
def setting? : Word → Option (List Char × Word)
  | .text s false :: more =>
    match Pieces.splitOnce (· == '=') s with
    | some (name, value) =>
      if Arithmetic.isName name then
        some (name, if value.isEmpty then more else .text value false :: more)
      else none
    | none => none
  | _ => none

/-- The settings, words and redirections that are next, at most `fuel` of them. -/
def parts : (fuel : Nat) → (settings : List (List Char × Word)) → (words : List Word) →
    List Redirect → Reader (List (List Char × Word) × List Word × List Redirect)
  | 0, settings, words, redirects => return (settings, words, redirects)
  | fuel + 1, settings, words, redirects => do
    match (← peek).token with
    | .word w =>
      modify List.tail
      match words.isEmpty, setting? w with
      | true, some setting => parts fuel (settings ++ [setting]) words redirects
      | _, _ => parts fuel settings (words ++ [w]) redirects
    | .redirect make =>
      modify List.tail
      let w ← word none
      parts fuel settings words (redirects ++ [make w])
    | .fullRedirect r =>
      modify List.tail
      parts fuel settings words (redirects ++ [r])
    | _ => return (settings, words, redirects)

/-- A call with its settings and redirections. -/
def simple : Reader Command := do
  let line := (← peek).line
  let (settings, words, redirects) ← parts (← get).length [] [] []
  if settings.isEmpty ∧ words.isEmpty ∧ redirects.isEmpty then unexpected none
  return .simple line settings words redirects

/-- The patterns of a branch up to the parenthesis after them, at most `fuel` of them. A symbol in
place of a pattern counts as an empty one. -/
def patterns : (fuel : Nat) → Reader (List Word)
  | 0 => unexpected none
  | fuel + 1 => do
    let w ← match (← peek).token with
      | .word w => do
        modify List.tail
        pure w
      | .fault _ => unexpected none
      | _ => do
        modify List.tail
        pure []
    if ← takes .pipe then return w :: (← patterns fuel)
    expect .closing
    return [w]

/-- The words that a loop runs through, if it names any. -/
def loopWords : Reader (Option (List Word)) := do
  skipLines
  if ← takesWord "in" then
    let ws ← words (← get).length
    match (← peek).token with
    | .operator .semicolon | .operator .newline => modify List.tail
    | _ => unexpected none
    skipLines
    return some ws
  else
    let _ ← takes .semicolon
    skipLines
    return none

mutual

/-- A list of commands, up to what ends it. Only the end of the script leaves it empty. -/
def list : (fuel : Nat) → Reader Script
  | 0 => unexpected none
  | fuel + 1 => do
    skipLines
    if let .stop := (← peek).token then return []
    let (first, goesOn) ← linkedLine fuel
    skipLines
    if !goesOn ∨ (← peek).token.endsList then return first
    return first ++ (← list fuel)

/-- Linked pipelines with the separator after them, and whether there is one. -/
def linkedLine : (fuel : Nat) → Reader (Script × Bool)
  | 0 => unexpected none
  | fuel + 1 => do
    let commands ← linked fuel
    if ← takes .background then return ([(.always, false, [.background commands])], true)
    if ← takes .semicolon then return (commands, true)
    match (← peek).token with
    | .operator .newline => return (commands, true)
    | _ => return (commands, false)

/-- Pipelines that depend on how those before them end. -/
def linked : (fuel : Nat) → Reader Script
  | 0 => unexpected none
  | fuel + 1 => do
    let (isNegated, commands) ← pipeline fuel
    return (.always, isNegated, commands) :: (← linkedAfter fuel)

/-- The rest of linked pipelines. -/
def linkedAfter : (fuel : Nat) → Reader Script
  | 0 => unexpected none
  | fuel + 1 => do
    let link? : Option Link ← if ← takes .andIf then pure (some .onSuccess)
      else if ← takes .orIf then pure (some .onFailure)
      else pure none
    match link? with
    | none => return []
    | some link =>
      skipLines
      let (isNegated, commands) ← pipeline fuel
      return (link, isNegated, commands) :: (← linkedAfter fuel)

/-- Commands each of which reads what the one before it prints. -/
def pipeline : (fuel : Nat) → Reader (Bool × List Command)
  | 0 => unexpected none
  | fuel + 1 => do
    let isNegated ← takesWord "!"
    return (isNegated, ← stages fuel)

/-- The commands of a pipeline. -/
def stages : (fuel : Nat) → Reader (List Command)
  | 0 => unexpected none
  | fuel + 1 => do
    let c ← command fuel
    if ← takes .pipe then
      skipLines
      return c :: (← stages fuel)
    return [c]

/-- A command. -/
def command : (fuel : Nat) → Reader Command
  | 0 => unexpected none
  | fuel + 1 => do
    let l ← peek
    match ← compound? fuel with
    | none => simple
    | some c =>
      match ← redirects (← get).length with
      | [] => return c
      | rs => return .redirected l.line c rs

/-- A compound command, if one is next. -/
def compound? : (fuel : Nat) → Reader (Option Command)
  | 0 => unexpected none
  | fuel + 1 => do
    let ls ← get
    let l ← peek
    match l.token, (ls.tail.headD ⟨.stop, 1⟩).token, l.token.keyword? with
    | .word w, .operator .opening, none =>
      if (setting? w).isSome then return none
      set ls.tail.tail
      expectClosing
      match l.token.name? with
      | some name =>
        if specialBuiltins.contains (String.ofList name) then throw (l.line, .badFunctionName)
        skipLines
        return some (.define name (← command fuel))
      | none => throw (l.line, .badFunctionName)
    | _, _, _ => pure ()
    if ← takes .opening then
      let body ← list fuel
      expect .closing
      return some (.subshell body)
    match l.token.keyword? with
    | some "\x7b" =>
      modify List.tail
      let body ← list fuel
      expectWord "\x7d"
      return some (.group body)
    | some "if" =>
      modify List.tail
      return some (← branchesFrom fuel [])
    | some "while" | some "until" =>
      modify List.tail
      let condition ← list fuel
      return some (.loop (l.token.keyword? == some "until") condition (← body fuel))
    | some "for" =>
      modify List.tail
      match (← peek).token.name? with
      | none => throw (l.line, .badLoopName)
      | some name =>
        modify List.tail
        let words? ← loopWords
        return some (.each l.line name words? (← body fuel))
    | some "case" =>
      modify List.tail
      let w ← word (some "word")
      skipLines
      expectWord "in"
      return some (.cases l.line w (← caseBranches fuel))
    | some _ => unexpected none
    | none => return none

/-- The commands of a loop. -/
def body : (fuel : Nat) → Reader Script
  | 0 => unexpected none
  | fuel + 1 => do
    expectWord "do"
    let commands ← list fuel
    expectWord "done"
    return commands

/-- The branches of a choice, the first condition of which is next, after others. -/
def branchesFrom : (fuel : Nat) → List (Script × Script) → Reader Command
  | 0, _ => unexpected none
  | fuel + 1, done => do
    let condition ← list fuel
    expectWord "then"
    let commands ← list fuel
    let done := done ++ [(condition, commands)]
    if ← takesWord "elif" then branchesFrom fuel done
    else if ← takesWord "else" then
      let otherwise ← list fuel
      expectWord "fi"
      return .choice done otherwise
    else
      expectWord "fi"
      return .choice done []

/-- The branches of a selection, up to its end. -/
def caseBranches : (fuel : Nat) → Reader (List (List Word × Script))
  | 0 => unexpected none
  | fuel + 1 => do
    skipLines
    if ← takesWord "esac" then return []
    let _ ← takes .opening
    let ps ← patterns (← get).length
    skipLines
    let commands ← if (← peek).token.endsList then pure [] else list fuel
    if ← takes .endBranch then return (ps, commands) :: (← caseBranches fuel)
    skipLines
    unless ← takesWord "esac" do unexpected (some "\";;\"")
    return [(ps, commands)]

end

/-- The commands up to the end of the line, at most `fuel` lists of them. -/
def lineFrom (depth : Nat) : (fuel : Nat) → Reader Script
  | 0 => unexpected none
  | fuel + 1 => do
    let (first, goesOn) ← linkedLine depth
    match (← peek).token with
    | .operator .newline | .stop => return first
    | _ => if goesOn then return first ++ (← lineFrom depth fuel) else unexpected none

/-- The commands of the next line that has any, or nothing at the end of the script. -/
def line? : Reader (Option Script) := do
  skipLines
  match (← peek).token with
  | .stop => return none
  | _ =>
    let size := (← get).length
    return some (← lineFrom (8 * size + 16) size)

end Reader

end TiBench.Shell
