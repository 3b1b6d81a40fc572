/-!
# Patterns

A pattern describes texts: `*` stands for any text, `?` for any character, and brackets for one of
the characters in them. A quoted character stands for itself.
-/

namespace TiBench.Shell

/-- Text in which each character is marked as quoted or not. -/
abbrev MarkedText := List (Char × Bool)

/-- Text that is quoted as a whole, or not at all. -/
def marked (isQuoted : Bool) (s : List Char) : MarkedText := s.map (·, isQuoted)

/-- The text without its marks. -/
def MarkedText.plain (t : MarkedText) : List Char := t.map Prod.fst

/-- A part of a pattern. -/
inductive PatternPart where
  | char (c : Char)
  | anyChar
  | anyText
  /-- One character that is in one of the ranges, or in none of them. -/
  | oneOf (isNegated : Bool) (ranges : List (Char × Char))
deriving DecidableEq, Repr

/-- A pattern. -/
abbrev Pattern := List PatternPart

namespace Pattern

/-- The ranges of characters up to the bracket that closes them, and what follows it. A bracket that
closes at once stands for itself. -/
def ranges? (isFirst : Bool) : MarkedText → Option (List (Char × Char) × MarkedText)
  | [] => none
  | (c, isQuoted) :: rest =>
    if c = ']' ∧ !isQuoted ∧ !isFirst then some ([], rest)
    else
      let single := (ranges? false rest).map fun (ranges, rest) => ((c, c) :: ranges, rest)
      match rest with
      | ('-', false) :: (d, isQuoted) :: rest =>
        if d = ']' ∧ !isQuoted then single
        else (ranges? false rest).map fun (ranges, rest) => ((c, d) :: ranges, rest)
      | _ => single

/-- The part for an opening bracket, and what follows it. -/
def brackets (rest : MarkedText) : PatternPart × MarkedText :=
  let (isNegated, body) := match rest with
    | ('!', false) :: body | ('^', false) :: body => (true, body)
    | _ => (false, rest)
  match ranges? true body with
  | some (ranges, rest) => (.oneOf isNegated ranges, rest)
  | none => (.char '[', rest)

/-- The parts of a pattern in a text of at most `fuel` characters. -/
def parts : (fuel : Nat) → MarkedText → Pattern
  | 0, _ | _, [] => []
  | fuel + 1, (c, isQuoted) :: rest =>
    if isQuoted then .char c :: parts fuel rest
    else match c with
      | '*' => .anyText :: parts fuel rest
      | '?' => .anyChar :: parts fuel rest
      | '[' =>
        let (part, rest) := brackets rest
        part :: parts fuel rest
      | _ => .char c :: parts fuel rest

/-- The pattern that a text writes. -/
def ofText (t : MarkedText) : Pattern := parts t.length t

/-- Whether a pattern stands for more than one text. -/
def isOpen (p : Pattern) : Bool :=
  p.any fun part => match part with
    | .char _ => false
    | _ => true

/-- Whether a part stands for a character. -/
def holdsChar (c : Char) : PatternPart → Bool
  | .char d => c == d
  | .anyChar => true
  | .anyText => false
  | .oneOf isNegated ranges => ranges.any (fun r => r.1 ≤ c && c ≤ r.2) != isNegated

/-- Whether a pattern stands for a text. -/
def holds : Pattern → List Char → Bool
  | [], s => s.isEmpty
  | .anyText :: p, s =>
    holds p s || match s with
      | [] => false
      | _ :: s => holds (.anyText :: p) s
  | _ :: _, [] => false
  | part :: p, c :: s => holdsChar c part && holds p s
termination_by p s => p.length + s.length

/-- The text without the part at its start that the pattern stands for, the longest or shortest. -/
def dropStart (p : Pattern) (longest : Bool) (s : List Char) : List Char :=
  let lengths := List.range (s.length + 1)
  let n? := (if longest then lengths.reverse else lengths).find? fun n => p.holds (s.take n)
  s.drop (n?.getD 0)

/-- The text without the part at its end that the pattern stands for, the longest or shortest. -/
def dropEnd (p : Pattern) (longest : Bool) (s : List Char) : List Char :=
  let lengths := List.range (s.length + 1)
  let n? := (if longest then lengths else lengths.reverse).find? fun n => p.holds (s.drop n)
  s.take (n?.getD s.length)

end Pattern

end TiBench.Shell
