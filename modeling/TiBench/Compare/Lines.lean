import TiBench.Compare.Error
import TiBench.Text.Blank
import TiBench.Text.Line

/-!
# Comparing text

Two texts match line by line, each line up to a width and without the blanks at its end.
-/

namespace TiBench.Compare

/-- Which part of each line is compared. -/
structure TextMask where
  /-- The number of characters compared, if not the whole line. -/
  width? : Option Nat
  /-- The lines, counted from one, that are not compared. -/
  skipped : List Nat
deriving DecidableEq, Repr

namespace TextMask

/-- The mask that compares the first characters of every line. -/
def leading (width : Nat) : TextMask := ⟨some width, []⟩

/-- The part of a line that is compared. -/
def key (m : TextMask) (line : List Char) : List Char :=
  Text.trimEnd (match m.width? with
    | some width => line.take width
    | none => line)

/-- What stands for a line that a text does not have. -/
def missing : List Char := "(missing)".toList

/-- What is compared where a text has this line, or none. -/
def shown (m : TextMask) (line : Option (List Char)) : List Char :=
  (line.map m.key).getD missing

end TextMask

/-- The first line, the first ones being number `line`, where two texts show something different. -/
def firstLineDifference? (m : TextMask) (line : Nat) :
    List (List Char) → List (List Char) → Option (Nat × List Char × List Char)
  | [], [] => none
  | [], a :: as =>
    if line ∈ m.skipped ∨ m.shown none = m.shown (some a) then
      firstLineDifference? m (line + 1) [] as
    else some (line, m.shown none, m.shown (some a))
  | e :: es, [] =>
    if line ∈ m.skipped ∨ m.shown (some e) = m.shown none then
      firstLineDifference? m (line + 1) es []
    else some (line, m.shown (some e), m.shown none)
  | e :: es, a :: as =>
    if line ∈ m.skipped ∨ m.shown (some e) = m.shown (some a) then
      firstLineDifference? m (line + 1) es as
    else some (line, m.shown (some e), m.shown (some a))

/-- Succeeds if the lines of `actual` match those of `expected`. -/
def compareText (expected actual : String) (m : TextMask) : Except CompareError Unit :=
  match firstLineDifference? m 1 (Text.lines expected.toList) (Text.lines actual.toList) with
  | none => .ok ()
  | some (line, e, a) => .error (.formatMismatch line (.ofList e) (.ofList a))

end TiBench.Compare
