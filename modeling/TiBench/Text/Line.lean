import TiBench.Pieces

/-!
# Lines

A line ends in a line feed, or in a carriage return and a line feed; the last line need not end.
-/

namespace TiBench.Text

/-- A line that a line feed ended, without the carriage return before it. -/
def dropReturn (line : List Char) : List Char :=
  if line.getLast? = some '\r' then line.dropLast else line

/-- The lines of a text, without their ends. A text that is empty, or that stops after a line
feed, has no further line there. -/
def lines (s : List Char) : List (List Char) :=
  let pieces := Pieces.splitOn (· == '\n') s
  let ended := pieces.dropLast.map dropReturn
  match pieces.getLast? with
  | none | some [] => ended
  | some rest => ended ++ [rest]

end TiBench.Text
