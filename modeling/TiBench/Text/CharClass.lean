import TiBench.Text.WordTable
import TiBench.Text.DigitTable
import TiBench.Text.FoldTable

/-!
# Character classes and case folding

Word characters, decimal digits and simple case folding, each read off its table.
-/

namespace TiBench.Text

/-- Whether some range of the table holds the code point. -/
def inRanges (table : Array (Nat × Nat)) (n : Nat) : Bool :=
  table.any (fun r => r.1 ≤ n && n ≤ r.2)

/-- A character that is part of a word. -/
def isWord (c : Char) : Bool := inRanges wordRanges c.toNat

/-- A decimal digit of any script. -/
def isDecimal (c : Char) : Bool := inRanges digitRanges c.toNat

/-- The code point that `n` folds to. -/
def foldCode (n : Nat) : Nat :=
  match foldRanges.find? (fun r => r.first ≤ n && n ≤ r.last && (n - r.first) % r.step == 0) with
  | some r => r.target + (n - r.first)
  | none => n

/-- Two characters that differ in case at most. -/
def sameLetter (a b : Char) : Bool := a == b || foldCode a.toNat == foldCode b.toNat

/-- What is left of `s` after `word`, letters compared without regard to case. -/
def dropWord? : (word s : List Char) → Option (List Char)
  | [], s => some s
  | _ :: _, [] => none
  | w :: word, c :: s => if sameLetter w c then dropWord? word s else none

/-- The place between two characters, either of which may be missing, is where a word begins or
ends. -/
def isWordEdge (before after : Option Char) : Bool :=
  (before.any isWord) != (after.any isWord)

end TiBench.Text
