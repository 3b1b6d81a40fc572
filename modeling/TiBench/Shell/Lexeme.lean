import TiBench.Pieces
import TiBench.Shell.Arithmetic
import TiBench.Shell.Script

/-!
# Lexemes

The words and symbols of a script. Words are read down to the parts whose values are only known
when the script runs.
-/

namespace TiBench.Shell

/-- A symbol between words. -/
inductive Operator where
  | newline
  | semicolon
  | background
  | andIf
  | orIf
  | pipe
  | opening
  | closing
  | endBranch
deriving DecidableEq, Repr

/-- A word or a symbol. -/
inductive Token where
  | word (w : Word)
  | operator (o : Operator)
  /-- A redirection that lacks its word. -/
  | redirect (make : Word → Redirect)
  | fullRedirect (r : Redirect)
  /-- The text cannot be read from here on. -/
  | fault (f : Fault)
  | stop

/-- A token with the line where it starts. -/
structure Lexeme where
  token : Token
  line : Nat

/-- Where a word is, which decides what ends it and what quotes. -/
inductive Scope where
  | word
  | quotes
  | braces (isQuoted : Bool)
  /-- The text is read to its end. -/
  | body
deriving DecidableEq, Repr

namespace Scope

/-- A character that ends a word unless it is quoted. -/
def isMeta (c : Char) : Bool := c ∈ [' ', '\t', '\n', ';', '&', '|', '<', '>', '(', ')']

/-- Whether the text is quoted. -/
def isQuoted : Scope → Bool
  | .word => false
  | .quotes | .body => true
  | .braces isQuoted => isQuoted

/-- Whether a character ends the text. -/
def endsAt (c : Char) : Scope → Bool
  | .word => isMeta c
  | .quotes => c == '"'
  | .braces _ => c == '\x7d'
  | .body => false

/-- Whether a double quote is a character like others. -/
def keepsQuotes : Scope → Bool
  | .body => true
  | _ => false

/-- The characters that a backslash quotes in quoted text. -/
def escapes : Scope → List Char
  | .braces _ => ['$', '`', '"', '\\', '\x7d']
  | .body => ['$', '`', '\\']
  | _ => ['$', '`', '"', '\\']

end Scope

/-- How a part of a script is quoted while the end of a nested script is looked for. -/
inductive Quoting where
  | none
  | single
  | double
deriving DecidableEq, Repr

/-- The text up to the parenthesis that closes as many as are open, and what follows it. -/
def closed? (q : Quoting) (depth : Nat) : List Char → Except Fault (List Char × List Char)
  | [] =>
    .error (if q = .none then .unexpected "end of file" (some "\")\"") else .openQuote)
  | '\\' :: c :: rest =>
    if q = .single then
      (closed? q depth (c :: rest)).map fun (text, rest) => ('\\' :: text, rest)
    else (closed? q depth rest).map fun (text, rest) => ('\\' :: c :: text, rest)
  | c :: rest =>
    if q = .none ∧ c = ')' ∧ depth = 0 then .ok ([], rest)
    else
      let depth := if q ≠ .none then depth
        else if c = '(' then depth + 1
        else if c = ')' then depth - 1
        else depth
      let q : Quoting := match q, c with
        | .none, '\x27' => .single
        | .single, '\x27' => .none
        | .none, '"' => .double
        | .double, '"' => .none
        | q, _ => q
      (closed? q depth rest).map fun (text, rest) => (c :: text, rest)

/-- The expression up to the two parentheses that end it, and what follows them. One that closes
nothing belongs to the expression, and so do quotes. -/
def expression? (depth : Nat) : List Char → Option (List Char × List Char)
  | [] => none
  | '\\' :: c :: rest => (expression? depth rest).map fun (e, rest) => ('\\' :: c :: e, rest)
  | c :: rest =>
    if c = ')' ∧ depth = 0 ∧ rest.head? = some ')' then some ([], rest.tail)
    else
      let depth := if c = '(' then depth + 1 else if c = ')' then depth - 1 else depth
      (expression? depth rest).map fun (e, rest) => (c :: e, rest)

/-- The script between backquotes, in which backslashes quote further ones, and what follows it. -/
def backquoted? (isQuoted : Bool) : List Char → Option (List Char × List Char)
  | [] => none
  | '`' :: rest => some ([], rest)
  | '\\' :: c :: rest =>
    let text := if c ∈ ['$', '`', '\\'] ∨ (isQuoted ∧ c = '"') then [c] else ['\\', c]
    (backquoted? isQuoted rest).map fun (more, rest) => (text ++ more, rest)
  | c :: rest => (backquoted? isQuoted rest).map fun (more, rest) => (c :: more, rest)

/-- The name of the parameter at the start of a text, and what follows it. -/
def parameterName (s : List Char) : List Char × List Char :=
  match s with
  | [] => ([], [])
  | c :: rest =>
    if c ∈ ['$', '?', '#', '@', '*', '!', '-'] then ([c], rest)
    else
      let name := s.takeWhile (if c.isDigit then Char.isDigit else Arithmetic.isNameChar)
      (name, s.drop name.length)

/-- The change that a parameter in braces undergoes, and what follows the sign for it. -/
def changeSign? (s : List Char) : Option (Change × List Char) :=
  let (ifEmpty, rest) := match s with
    | ':' :: rest => (true, rest)
    | _ => (false, s)
  match rest with
  | '-' :: rest => some (.otherwise ifEmpty, rest)
  | '=' :: rest => some (.assign ifEmpty, rest)
  | '?' :: rest => some (.fail ifEmpty, rest)
  | '+' :: rest => some (.instead ifEmpty, rest)
  | _ => if ifEmpty then none else match s with
    | '#' :: '#' :: rest => some (.dropStart true, rest)
    | '#' :: rest => some (.dropStart false, rest)
    | '%' :: '%' :: rest => some (.dropEnd true, rest)
    | '%' :: rest => some (.dropEnd false, rest)
    | _ => none

/-- Whether the word of a change is a pattern. -/
def Change.takesPattern : Change → Bool
  | .dropStart _ | .dropEnd _ => true
  | _ => false

/-- A word in which neighbouring texts that are quoted alike are one piece. -/
def joinTexts (w : Word) : Word :=
  w.foldr (fun piece w => match piece, w with
    | .text s p, .text t q :: more => if p = q then .text (s ++ t) p :: more else piece :: w
    | _, _ => piece :: w) []

/-- What is quoted is a word even if it is empty, but not if it holds all arguments alone. -/
def closeQuotes (w : Word) : Word :=
  match w with
  | [.parameter ['@'] _ _] => w
  | _ => w ++ [.text [] true]

mutual

/-- The pieces of a text up to its end, and what follows it. -/
def pieces (scope : Scope) : (fuel : Nat) → List Char → Except Fault (Word × List Char)
  | 0, _ => .error .openQuote
  | _ + 1, [] =>
    match scope with
    | .word | .body => .ok ([], [])
    | .quotes => .error .openQuote
    | .braces _ => .error .openBrace
  | fuel + 1, c :: rest => do
    if scope.endsAt c then return ([], if scope = .word then c :: rest else rest)
    let (here, rest) ← piecesOf scope fuel c rest
    let (more, rest) ← pieces scope fuel rest
    return (here ++ more, rest)

/-- The pieces that a character begins, and what follows them. -/
def piecesOf (scope : Scope) :
    (fuel : Nat) → Char → List Char → Except Fault (Word × List Char)
  | 0, _, _ => .error .openQuote
  | fuel + 1, c, rest =>
    match c with
    | '\x27' =>
      if scope.isQuoted then .ok ([.text [c] true], rest)
      else match Pieces.splitOnce (· == '\x27') rest with
        | some (s, rest) => .ok ([.text s true], rest)
        | none => .error .openQuote
    | '"' =>
      if scope.keepsQuotes then .ok ([.text [c] true], rest)
      else do
        let (inner, rest) ← pieces .quotes fuel rest
        return (closeQuotes inner, rest)
    | '\\' =>
      match rest with
      | [] => .ok ([.text ['\\'] true], [])
      | d :: after =>
        if d = '\n' then .ok ([], after)
        else if scope.isQuoted ∧ d ∉ scope.escapes then .ok ([.text ['\\'] true], rest)
        else .ok ([.text [d] true], after)
    | '`' =>
      match backquoted? scope.isQuoted rest with
      | some (script, rest) => .ok ([.output script scope.isQuoted], rest)
      | none => .error .openBackquote
    | '$' => do
      let (piece, rest) ← pieceAfterDollar scope.isQuoted fuel rest
      return ([piece], rest)
    | _ => .ok ([.text [c] scope.isQuoted], rest)

/-- The piece after a dollar sign, and what follows it. Before anything that is no piece the sign
stands for itself. -/
def pieceAfterDollar (isQuoted : Bool) :
    (fuel : Nat) → List Char → Except Fault (Piece × List Char)
  | 0, _ => .error .openQuote
  | fuel + 1, s =>
    match s with
    | '(' :: '(' :: rest =>
      match expression? 0 rest with
      | some (e, rest) => do
        let (e, _) ← pieces .body fuel e
        return (.arithmetic e isQuoted, rest)
      | none => .error .openArithmetic
    | '(' :: rest =>
      match closed? .none 0 rest with
      | .ok (script, rest) => .ok (.output script isQuoted, rest)
      | .error f => .error f
    | '\x7b' :: rest => pieceInBraces isQuoted fuel rest
    | _ =>
      match parameterName s with
      | ([], _) => .ok (.text ['$'] isQuoted, s)
      | (c :: name, rest) =>
        if c.isDigit then .ok (.parameter [c] none isQuoted, s.drop 1)
        else .ok (.parameter (c :: name) none isQuoted, rest)

/-- The parameter after an opening brace, and what follows the closing one. -/
def pieceInBraces (isQuoted : Bool) :
    (fuel : Nat) → List Char → Except Fault (Piece × List Char)
  | 0, _ => .error .openBrace
  | fuel + 1, s =>
    let unknown : Except Fault (Piece × List Char) := do
      let (_, rest) ← pieces (.braces isQuoted) fuel s
      return (.parameter [] (some (.unknown, [])) isQuoted, rest)
    let plain (s : List Char) : Except Fault (Piece × List Char) :=
      match parameterName s with
      | ([], _) => unknown
      | (name, '\x7d' :: rest) => .ok (.parameter name none isQuoted, rest)
      | (name, rest) =>
        match changeSign? rest with
        | none => unknown
        | some (change, rest) => do
          let (w, rest) ← pieces (.braces (isQuoted && !change.takesPattern)) fuel rest
          return (.parameter name (some (change, joinTexts w)) isQuoted, rest)
    match s with
    | '#' :: '\x7d' :: _ => plain s
    | '#' :: rest =>
      match parameterName rest with
      | (c :: name, '\x7d' :: rest) =>
        .ok (.parameter (c :: name) (some (.length, [])) isQuoted, rest)
      | _ => plain s
    | _ => plain s

end

/-- The pieces of a text, with enough fuel for its length. -/
def piecesIn (scope : Scope) (s : List Char) : Except Fault (Word × List Char) := do
  let (w, rest) ← pieces scope (3 * s.length + 3) s
  return (joinTexts w, rest)

/-- The symbol at the start of a text, and what follows it. -/
def operator? : List Char → Option (Operator × List Char)
  | '\n' :: rest => some (.newline, rest)
  | ';' :: ';' :: rest => some (.endBranch, rest)
  | ';' :: rest => some (.semicolon, rest)
  | '&' :: '&' :: rest => some (.andIf, rest)
  | '&' :: rest => some (.background, rest)
  | '|' :: '|' :: rest => some (.orIf, rest)
  | '|' :: rest => some (.pipe, rest)
  | '(' :: rest => some (.opening, rest)
  | ')' :: rest => some (.closing, rest)
  | _ => none

/-- The redirection at the start of a text, perhaps after the digit of a stream, and what follows
it. -/
def redirect? (s : List Char) : Option ((Word → Redirect) × List Char) :=
  let (fd?, rest) := match s with
    | d :: '<' :: rest => if d.isDigit then (some (d.toNat - '0'.toNat), '<' :: rest) else (none, s)
    | d :: '>' :: rest => if d.isDigit then (some (d.toNat - '0'.toNat), '>' :: rest) else (none, s)
    | _ => (none, s)
  let out := fd?.getD 1
  match rest with
  | '>' :: '>' :: rest => some (.toFile out true, rest)
  | '>' :: '&' :: rest => some (.toStream out, rest)
  | '>' :: '|' :: rest => some (.toFile out false, rest)
  | '>' :: rest => some (.toFile out false, rest)
  | '<' :: '&' :: rest => some (.toStream (fd?.getD 0), rest)
  | '<' :: rest => some (.fromFile, rest)
  | _ => none

/-- The lines up to one that equals `stop`, as text, and the lines after that. -/
def linesUntil (stop : List Char) (dropTabs : Bool) :
    List (List Char) → List Char × List (List Char)
  | [] => ([], [])
  | l :: more =>
    let l := if dropTabs then l.dropWhile (· == '\t') else l
    if l = stop then ([], more)
    else if more.isEmpty then (l, [])
    else
      let (text, rest) := linesUntil stop dropTabs more
      (l ++ '\n' :: text, rest)

/-- The redirection that reads the lines after the present one, up to one that equals the word at
the start of a text, and what follows the word, without those lines. -/
def hereText (dropTabs : Bool) (s : List Char) : Except Fault (Redirect × List Char) := do
  let (w, rest) ← piecesIn .word s
  let stop := w.flatMap fun piece => match piece with
    | .text s _ => s
    | _ => []
  let isQuoted := w.any fun piece => match piece with
    | .text _ isQuoted => isQuoted
    | _ => false
  let (here, after) := match Pieces.splitOnce (· == '\n') rest with
    | some (here, after) => (here, Pieces.splitOn (· == '\n') after)
    | none => (rest, [])
  let (text, after) := linesUntil stop dropTabs after
  let body ← if isQuoted then .ok [Piece.text text true] else (piecesIn .body text).map Prod.fst
  let after := after.flatMap ('\n' :: ·)
  return (.fromText body, here ++ after)

/-- The lexeme at the start of a text that begins with no blank, and what follows it. -/
def nextToken (s : List Char) : Except Fault (Token × List Char) :=
  match operator? s, s with
  | some (o, rest), _ => .ok (.operator o, rest)
  | none, '<' :: '<' :: rest => do
    let (dropTabs, rest) := match rest with
      | '-' :: rest => (true, rest)
      | _ => (false, rest)
    let rest := rest.dropWhile fun c => c == ' ' || c == '\t'
    if rest.head?.all Scope.isMeta then return (.redirect .fromText, rest)
    let (r, rest) ← hereText dropTabs rest
    return (.fullRedirect r, rest)
  | none, _ =>
    match redirect? s with
    | some (make, rest) => .ok (.redirect make, rest)
    | none => do
      let (w, rest) ← piecesIn .word s
      return (.word w, rest)

/-- The lexemes of a text of at most `fuel` characters that starts on a line. -/
def lexemes : (fuel : Nat) → (line : Nat) → List Char → List Lexeme
  | 0, line, _ | _, line, [] => [⟨.stop, line⟩]
  | fuel + 1, line, c :: rest =>
    if c = ' ' ∨ c = '\t' then lexemes fuel line rest
    else if c = '#' then lexemes fuel line (rest.dropWhile (· != '\n'))
    else if c = '\\' ∧ rest.head? = some '\n' then lexemes fuel (line + 1) rest.tail
    else match nextToken (c :: rest) with
      | .error f => [⟨.fault f, line + (c :: rest).count '\n'⟩]
      | .ok (t, after) =>
        let passed := (c :: rest).count '\n' - after.count '\n'
        ⟨t, line⟩ :: lexemes fuel (line + passed) after

/-- The lexemes of a script. -/
def Lexeme.scan (s : List Char) : List Lexeme := lexemes s.length 1 s

end TiBench.Shell
