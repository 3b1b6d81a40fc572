import TiBench.Text.Blank
import TiBench.Text.CharClass
import TiBench.Text.Line

/-!
# Markers

Comments in a source text that tag the lines for which a tool must report an error or a warning.
A tag stands after the comment sign, blanks between them allowed, and ends where a word ends.
Letters are compared without regard to case.
-/

namespace TiBench.Sample

/-- How bad a reported problem is. -/
inductive Severity where
  | error
  | warning
deriving DecidableEq, Repr

/-- The name of a severity. -/
def Severity.text : Severity → String
  | .error => "Error"
  | .warning => "Warning"

/-- The comment sign and the tags of a source language. -/
structure MarkerStyle where
  comment : String
  errorTag : String
  warningTag : String
deriving DecidableEq, Repr

/-- The usual style, that of assembly sources. -/
def MarkerStyle.usual : MarkerStyle := ⟨";", "ERROR", "WARN"⟩

/-- A line, counted from one, for which a tool must report a problem. -/
structure Marker where
  line : Nat
  severity : Severity
deriving DecidableEq, Repr

namespace Marker

/-- Whether `tag` stands at the start of `s` and ends where a word ends. The character before `s`,
if there is one, is `before`. -/
def tagHere (tag : List Char) (before : Option Char) (s : List Char) : Bool :=
  match Text.dropWord? tag s with
  | none => false
  | some rest => Text.isWordEdge ((s.take tag.length).getLast?.or before) rest.head?

/-- Whether `tag` stands at the start of `s` or after blanks there. -/
def tagAfterBlanks (tag : List Char) (before : Option Char) : List Char → Bool
  | [] => tagHere tag before []
  | c :: s => tagHere tag before (c :: s) || (Text.isBlank c && tagAfterBlanks tag (some c) s)

/-- Whether a comment sign at the start of `s` is followed by `tag`. -/
def markHere (comment tag : List Char) (before : Option Char) (s : List Char) : Bool :=
  match Text.dropWord? comment s with
  | none => false
  | some rest => tagAfterBlanks tag ((s.take comment.length).getLast?.or before) rest

/-- Whether a comment sign somewhere in `s` is followed by `tag`. -/
def marks (comment tag : List Char) (before : Option Char) : List Char → Bool
  | [] => markHere comment tag before []
  | c :: s => markHere comment tag before (c :: s) || marks comment tag (some c) s

/-- The severity of a line. An error tag goes before a warning tag. -/
def ofLine? (style : MarkerStyle) (line : List Char) : Option Severity :=
  if marks style.comment.toList style.errorTag.toList none line then some .error
  else if marks style.comment.toList style.warningTag.toList none line then some .warning
  else none

/-- The markers of a source text in the order of its lines. -/
def ofSource (style : MarkerStyle) (source : String) : List Marker :=
  ((Text.lines source.toList).mapIdx fun i line =>
    (ofLine? style line).map fun severity => ⟨i + 1, severity⟩).filterMap id

end Marker

end TiBench.Sample
