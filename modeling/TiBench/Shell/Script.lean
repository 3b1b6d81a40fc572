/-!
# Shell scripts

What a script consists of: commands, simple or compound, in pipelines that are linked to lists.
-/

namespace TiBench.Shell

/-- What is taken in place of the value of a parameter. The word counts if the parameter is not set
or, in some forms, if it is empty. -/
inductive Change where
  | otherwise (ifEmpty : Bool)
  /-- As `otherwise`; the parameter also gets the value. -/
  | assign (ifEmpty : Bool)
  /-- The word says what is wrong. -/
  | fail (ifEmpty : Bool)
  /-- The word in place of a value, nothing otherwise. -/
  | instead (ifEmpty : Bool)
  | length
  /-- Without the start that the word, a pattern, stands for. -/
  | dropStart (longest : Bool)
  | dropEnd (longest : Bool)
  /-- There is no such form. -/
  | unknown
deriving DecidableEq, Repr

/-- A part of a word. -/
inductive Piece where
  | text (s : List Char) (isQuoted : Bool)
  | parameter (name : List Char) (change? : Option (Change × List Piece)) (isQuoted : Bool)
  /-- The output of a script. -/
  | output (script : List Char) (isQuoted : Bool)
  /-- The value of an arithmetic expression. -/
  | arithmetic (e : List Piece) (isQuoted : Bool)

/-- A word, before its parameters have values. -/
abbrev Word := List Piece

/-- What is put in place of one of the streams of a command. -/
inductive Redirect where
  /-- Output goes to a file, after what is in it or in place of that. -/
  | toFile (fd : Nat) (append : Bool) (file : Word)
  | fromFile (file : Word)
  /-- Output goes where the output of another stream goes. -/
  | toStream (fd : Nat) (target : Word)
  /-- The text itself is what there is to read. -/
  | fromText (text : Word)

/-- When a pipeline runs, by how the one before it ended. -/
inductive Link where
  | always
  | onSuccess
  | onFailure
deriving DecidableEq, Repr

/-- A command. A list of commands consists of pipelines, each with its link to the one before it and
with whether its success is turned around. -/
inductive Command where
  /-- Settings of variables and the words of a call, either of which may be missing. -/
  | simple (line : Nat) (settings : List (List Char × Word)) (words : List Word)
    (redirects : List Redirect)
  | redirected (line : Nat) (body : Command) (redirects : List Redirect)
  | group (body : List (Link × Bool × List Command))
  /-- What runs in it changes nothing outside but files. -/
  | subshell (body : List (Link × Bool × List Command))
  | background (body : List (Link × Bool × List Command))
  /-- The first branch whose condition succeeds, or the last list. -/
  | choice
    (branches : List (List (Link × Bool × List Command) × List (Link × Bool × List Command)))
    (otherwise : List (Link × Bool × List Command))
  | loop (isUntil : Bool) (condition body : List (Link × Bool × List Command))
  /-- Once for each word, or for each argument of the script. -/
  | each (line : Nat) (name : List Char) (words? : Option (List Word))
    (body : List (Link × Bool × List Command))
  /-- The first branch with a pattern that stands for the word. -/
  | cases (line : Nat) (word : Word)
    (branches : List (List Word × List (Link × Bool × List Command)))
  /-- A name for a command. -/
  | define (name : List Char) (body : Command)

/-- A list of commands. -/
abbrev Script := List (Link × Bool × List Command)

/-- Why a text is no script. -/
inductive Fault where
  | openQuote
  | openBackquote
  | openBrace
  | openArithmetic
  | badLoopName
  | badFunctionName
  /-- A symbol stands where it cannot, perhaps in place of another one. -/
  | unexpected (found : String) (expected? : Option String)
deriving DecidableEq, Repr

/-- The wording of a fault. -/
def Fault.message : Fault → String
  | .openQuote => "Syntax error: Unterminated quoted string"
  | .openBackquote => "Syntax error: EOF in backquote substitution"
  | .openBrace => "Syntax error: Missing '\x7d'"
  | .openArithmetic => "Syntax error: Missing '))'"
  | .badLoopName => "Syntax error: Bad for loop variable"
  | .badFunctionName => "Syntax error: Bad function name"
  | .unexpected found none => "Syntax error: " ++ found ++ " unexpected"
  | .unexpected found (some expected) =>
    "Syntax error: " ++ found ++ " unexpected (expecting " ++ expected ++ ")"

end TiBench.Shell
