import TiBench.Sample.Marker
import TiBench.Text.Number

/-!
# Reports

What a tool reports on its error stream: perhaps a banner on the first line, diagnostics of the
form `[0012] Error: message`, perhaps a summary of their numbers, and lines of context between
them. A report agrees with markers if it has one diagnostic for each of them, in order.
-/

namespace TiBench.Tool

open TiBench.Sample (Severity Marker)

/-- A problem that a tool reports for a line of its input. -/
structure Diagnostic where
  line : Nat
  severity : Severity
  message : String
deriving DecidableEq, Repr

/-- The place and the severity of a diagnostic. -/
def Diagnostic.marker (d : Diagnostic) : Marker := ⟨d.line, d.severity⟩

/-- Numbers of errors and of warnings. -/
structure Summary where
  errors : Nat
  warnings : Nat
deriving DecidableEq, Repr

/-- What a line of the error stream is. -/
inductive ReportLine where
  | diagnostic (d : Diagnostic)
  | summary (s : Summary)
  /-- The form of a diagnostic or a summary, with a number that does not fit. -/
  | oversized (text : String)
  | plain (text : String)
  | blank
deriving DecidableEq, Repr

namespace ReportLine

/-- A run of decimal digits of any script at the start of a text, at least one, and what follows. -/
def digits? (s : List Char) : Option (List Char × List Char) :=
  let run := s.takeWhile Text.isDecimal
  if run.isEmpty then none else some (run, s.drop run.length)

/-- What follows the blanks at the start of a text, of which there must be one at least. -/
def dropBlanks? (s : List Char) : Option (List Char) :=
  if s.head?.any Text.isBlank then some (s.dropWhile Text.isBlank) else none

/-- The severity named at the start of a text, in any case, and what follows. -/
def severity? (s : List Char) : Option (Severity × List Char) :=
  match Text.dropWord? "error".toList s with
  | some rest => some (.error, rest)
  | none => (Text.dropWord? "warning".toList s).map (.warning, ·)

/-- A text without the given character at its start, if it stands there. -/
def dropOptional (c : Char) (s : List Char) : List Char :=
  match s with
  | d :: rest => if Text.sameLetter c d then rest else s
  | [] => s

/-- The number that digits write, if they are ASCII digits and it fits 64 bits. -/
def count? (digits : List Char) : Option Nat := Text.number? 10 Text.bound64 digits

/-- The digits, the severity and the message of a line of the form of a diagnostic. -/
def diagnosticParts? (line : List Char) : Option (List Char × Severity × List Char) :=
  match line with
  | '[' :: rest => do
    let (number, rest) ← digits? rest
    let (severity, rest) ← severity? (← dropBlanks? (← Text.dropWord? [']'] rest))
    return (number, severity, (dropOptional ':' rest).dropWhile Text.isBlank)
  | _ => none

/-- The digits of the two counts of a line that starts like a summary. -/
def summaryParts? (line : List Char) : Option (List Char × List Char) := do
  let (errors, rest) ← digits? line
  let rest := dropOptional 's' (← Text.dropWord? "error".toList (← dropBlanks? rest))
  let (warnings, rest) ← digits? ((← Text.dropWord? [','] rest).dropWhile Text.isBlank)
  let _ ← Text.dropWord? "warning".toList (← dropBlanks? rest)
  return (errors, warnings)

/-- What a line is. -/
def ofLine (line : List Char) : ReportLine :=
  let line := Text.trimEnd line
  match diagnosticParts? line with
  | some (number, severity, message) =>
    match count? number with
    | some n => .diagnostic ⟨n, severity, .ofList message⟩
    | none => .oversized (.ofList line)
  | none =>
    match summaryParts? line with
    | some (errors, warnings) =>
      match count? errors, count? warnings with
      | some e, some w => .summary ⟨e, w⟩
      | _, _ => .oversized (.ofList line)
    | none => if line.isEmpty then .blank else .plain (.ofList line)

/-- The diagnostic of a line, if it is one. -/
def diagnostic? : ReportLine → Option Diagnostic
  | diagnostic d => some d
  | _ => none

/-- The summary of a line, if it is one. -/
def summary? : ReportLine → Option Summary
  | summary s => some s
  | _ => none

/-- The text of a line, if it is neither a diagnostic nor a summary nor blank. -/
def context? : ReportLine → Option String
  | oversized text | plain text => some text
  | _ => none

/-- The text of a line that could be a banner. -/
def banner? : ReportLine → Option String
  | plain text => some text
  | _ => none

end ReportLine

/-- An error stream, taken apart. -/
structure Report where
  banner? : Option String
  diagnostics : List Diagnostic
  summary? : Option Summary
  context : List String
deriving DecidableEq, Repr

namespace Report

/-- The report in an error stream. Of several summaries the last counts. -/
def parse (stderr : List Char) : Report :=
  let lines := (Text.lines stderr).map ReportLine.ofLine
  let banner? := lines.head?.bind ReportLine.banner?
  { banner? := banner?
    diagnostics := lines.filterMap ReportLine.diagnostic?
    summary? := (lines.filterMap ReportLine.summary?).getLast?
    context := (if banner?.isSome then lines.drop 1 else lines).filterMap ReportLine.context? }

/-- The number of diagnostics of a severity. -/
def count (r : Report) (s : Severity) : Nat := (r.diagnostics.filter (·.severity == s)).length

/-- The numbers of diagnostics that a summary should give. -/
def tally (r : Report) : Summary := ⟨r.count .error, r.count .warning⟩

end Report

/-- How a report disagrees with markers. -/
inductive MarkerMismatch where
  /-- There are more or fewer diagnostics than markers. -/
  | lines (expected actual : List Nat)
  /-- The diagnostic with a number, counted from one, has another line or severity. -/
  | diagnostic (number : Nat) (expected actual : Marker)
  /-- The summary gives other numbers than there are diagnostics. -/
  | summary (claimed found : Summary)
deriving DecidableEq, Repr

/-- What a disagreement is about. -/
def MarkerMismatch.detail : MarkerMismatch → String
  | .lines expected actual =>
    let shown (ns : List Nat) : String := "[" ++ ", ".intercalate (ns.map toString) ++ "]"
    "expected diagnostics at lines " ++ shown expected ++ ", got " ++ shown actual
  | .diagnostic number expected actual =>
    let shown (m : Marker) : String := m.severity.text ++ " at line " ++ toString m.line
    s!"diagnostic {number} is " ++ shown actual ++ ", expected " ++ shown expected
  | .summary claimed found =>
    "summary claims " ++ toString claimed.errors ++ " errors and " ++ toString claimed.warnings
      ++ " warnings, found " ++ toString found.errors ++ " and " ++ toString found.warnings

/-- The wording of a disagreement. -/
def MarkerMismatch.message (m : MarkerMismatch) : String :=
  "diagnostics do not match the markers: " ++ m.detail

/-- The first pair, counted from `number`, of a diagnostic and a marker that differ. -/
def firstDisagreement? (number : Nat) : List Marker → List Marker → Option MarkerMismatch
  | expected :: markers, actual :: found =>
    if actual = expected then firstDisagreement? (number + 1) markers found
    else some (.diagnostic number expected actual)
  | _, _ => none

/-- Succeeds if a report agrees with markers, and its summary, if it has one, with itself. -/
def compareMarkers (r : Report) (markers : List Marker) : Except MarkerMismatch Unit :=
  let found := r.diagnostics.map Diagnostic.marker
  if found.length ≠ markers.length then
    .error (.lines (markers.map Marker.line) (found.map Marker.line))
  else match firstDisagreement? 1 markers found with
    | some m => .error m
    | none =>
      match r.summary? with
      | some claimed =>
        if claimed = r.tally then .ok () else .error (.summary claimed r.tally)
      | none => .ok ()

end TiBench.Tool
