import TiBench.Tool.Report
import TiBench.Proofs.Number
import Mathlib.Data.List.Basic
import Mathlib.Data.List.TakeWhile

/-!
# Laws of reports

An error stream that is printed line by line, diagnostics, context and a summary in any order, is
taken apart into what was printed, and agrees with markers exactly if its diagnostics do.
-/

namespace TiBench

open Text (isBlank isDecimal paddedDigits)

/-! ## Blanks -/

namespace Text

variable {s : List Char}

theorem trimEnd_concat (s : List Char) (c : Char) :
    trimEnd (s ++ [c]) = if isBlank c then trimEnd s else s ++ [c] :=
  Pieces.dropEndWhile_concat isBlank s c

theorem trimEnd_eq_nil_iff : trimEnd s = [] ↔ s.all isBlank = true := by
  simp only [trimEnd, Pieces.dropEndWhile, List.reverse_eq_nil_iff, List.dropWhile_eq_nil_iff,
    List.mem_reverse, List.all_eq_true]

/-- Trimming leaves the start of a text that is not blank. -/
theorem head?_trimEnd (h : s.all isBlank = false) : (trimEnd s).head? = s.head? := by
  obtain ⟨rest, hrest⟩ := Pieces.isPrefix_dropEndWhile isBlank s
  cases ht : trimEnd s with
  | nil => rw [trimEnd_eq_nil_iff.1 ht] at h; cases h
  | cons c t =>
      rw [trimEnd] at ht
      rw [← hrest, ht]; rfl

theorem dropReturn_cases (s : List Char) : dropReturn s = s ∨ s = dropReturn s ++ ['\r'] := by
  rw [dropReturn]
  split
  · rename_i hlast
    exact Or.inr (List.dropLast_append_getLast? _ hlast).symm
  · exact Or.inl rfl

/-- A carriage return at the end of a line is a blank that is trimmed anyway. -/
theorem trimEnd_dropReturn (s : List Char) : trimEnd (dropReturn s) = trimEnd s := by
  rcases dropReturn_cases s with h | h
  · rw [h]
  · have hreturn : isBlank '\r' = true := by decide
    have hsame := congrArg trimEnd h
    rw [trimEnd_concat, if_pos hreturn] at hsame
    exact hsame.symm

theorem dropReturn_concat (s : List Char) : dropReturn (s ++ ['\r']) = s := by
  rw [dropReturn, List.getLast?_concat, if_pos rfl, List.dropLast_concat]

theorem dropWhile_isBlank_of_head (h : ∀ c, s.head? = some c → isBlank c = false) :
    s.dropWhile isBlank = s := by
  cases s with
  | nil => rfl
  | cons c s => rw [List.dropWhile_cons, h c rfl]; rfl

/-- A blank in front goes, and no more. -/
theorem dropWhile_isBlank_space (h : ∀ c, s.head? = some c → isBlank c = false) :
    (' ' :: s).dropWhile isBlank = s := by
  rw [List.dropWhile_cons, if_pos (by decide)]
  exact dropWhile_isBlank_of_head h

/-! ## Words -/

theorem sameLetter_self (c : Char) : sameLetter c c = true := by simp [sameLetter]

theorem foldRanges_avoid_lower :
    foldRanges.toList.all (fun r => r.last < 0x61 || 0x7a < r.first) = true := by decide +kernel

/-- The letters from `a` to `z` are folded to, and do not fold themselves. -/
theorem foldCode_of_lower {n : Nat} (h : 0x61 ≤ n ∧ n ≤ 0x7a) : foldCode n = n := by
  have hnone : foldRanges.find?
      (fun r => r.first ≤ n && n ≤ r.last && (n - r.first) % r.step == 0) = none := by
    refine Array.find?_eq_none.2 fun r hr hmatch => ?_
    have hout := List.all_eq_true.1 foldRanges_avoid_lower r (Array.mem_toList_iff.2 hr)
    simp only [Bool.and_eq_true, Bool.or_eq_true, decide_eq_true_eq] at hmatch hout
    omega
  -- The equation of the definition would have the table evaluated.
  delta foldCode
  rw [hnone]

theorem sameLetter_of_lower {a b : Char} (h : 0x61 ≤ a.toNat ∧ a.toNat ≤ 0x7a) :
    sameLetter a b = (a == b || a.toNat == foldCode b.toNat) := by
  rw [sameLetter, foldCode_of_lower h]

theorem dropWord?_of_head {w c : Char} (h : sameLetter w c = false) (word s : List Char) :
    dropWord? (w :: word) (c :: s) = none := by
  rw [dropWord?, if_neg (Bool.not_eq_true _ ▸ h)]

theorem dropWord?_self (word s : List Char) : dropWord? word (word ++ s) = some s := by
  induction word with
  | nil => rfl
  | cons c word ih => rw [List.cons_append, dropWord?, if_pos (sameLetter_self c)]; exact ih

/-- The first letter of a word may be shown in upper case. -/
theorem dropWord?_cons {w c : Char} (h : sameLetter w c = true) (word s : List Char) :
    dropWord? (w :: word) (c :: (word ++ s)) = some s := by
  rw [dropWord?, if_pos h, dropWord?_self]

end Text

namespace Tool

/-! ## Parts of a line -/

namespace ReportLine

theorem digits?_paddedDigits {c : Char} (h : isDecimal c = false) (zeros n : Nat)
    (rest : List Char) : digits? (paddedDigits zeros n ++ c :: rest)
      = some (paddedDigits zeros n, c :: rest) := by
  have hrun : (paddedDigits zeros n ++ c :: rest).takeWhile isDecimal = paddedDigits zeros n := by
    rw [List.takeWhile_append_of_pos fun d hd =>
      Text.isDecimal_of_isDigit (Text.isDigit_of_mem_paddedDigits hd), List.takeWhile_cons, h]
    exact List.append_nil _
  have hne : (paddedDigits zeros n).isEmpty = false :=
    List.isEmpty_eq_false_iff.2 (Text.paddedDigits_ne_nil zeros n)
  rw [digits?, hrun]
  simp only [hne, Bool.false_eq_true, if_false, List.drop_left]

theorem digits?_eq_none {s : List Char} (h : ∀ c, s.head? = some c → isDecimal c = false) :
    digits? s = none := by
  cases s with
  | nil => rfl
  | cons c s => simp only [digits?, List.takeWhile_cons, h c rfl, Bool.false_eq_true, if_false,
      List.isEmpty_nil, if_true]

theorem dropBlanks?_space {s : List Char} (h : ∀ c, s.head? = some c → isBlank c = false) :
    dropBlanks? (' ' :: s) = some s := by
  rw [dropBlanks?, List.head?_cons, Option.any_some, if_pos (by decide),
    Text.dropWhile_isBlank_space h]

theorem dropOptional_self (c : Char) (s : List Char) : dropOptional c (c :: s) = s := by
  rw [dropOptional, if_pos (Text.sameLetter_self c)]

theorem severity?_text (s : Sample.Severity) (rest : List Char) :
    severity? (s.text.toList ++ rest) = some (s, rest) := by
  cases s with
  | error =>
      have hfirst : Text.sameLetter 'e' 'E' = true := by
        rw [Text.sameLetter_of_lower (by decide)]; decide +kernel
      have hword : Text.dropWord? "error".toList ('E' :: ("rror".toList ++ rest)) = some rest :=
        Text.dropWord?_cons hfirst "rror".toList rest
      change severity? ('E' :: ("rror".toList ++ rest)) = _
      simp only [severity?, hword]
  | warning =>
      have hfirst : Text.sameLetter 'w' 'W' = true ∧ Text.sameLetter 'e' 'W' = false := by
        rw [Text.sameLetter_of_lower (by decide), Text.sameLetter_of_lower (by decide)]
        decide +kernel
      have hword : Text.dropWord? "warning".toList ('W' :: ("arning".toList ++ rest)) = some rest :=
        Text.dropWord?_cons hfirst.1 "arning".toList rest
      have hother : Text.dropWord? "error".toList ('W' :: ("arning".toList ++ rest)) = none :=
        Text.dropWord?_of_head hfirst.2 _ _
      change severity? ('W' :: ("arning".toList ++ rest)) = _
      simp only [severity?, hother, hword, Option.map_some]

theorem isDigit_of_head_eq {c : Char} {zeros n : Nat} {rest : List Char}
    (h : (paddedDigits zeros n ++ rest).head? = some c) : c.isDigit = true := by
  obtain ⟨d, digits, hdigits⟩ := List.exists_cons_of_ne_nil (Text.paddedDigits_ne_nil zeros n)
  rw [hdigits] at h
  cases h
  exact Text.isDigit_of_mem_paddedDigits (hdigits ▸ List.mem_cons_self)

/-- The parts of a diagnostic, with or without a blank before its message. -/
theorem diagnosticParts?_paddedDigits (zeros n : Nat) (s : Sample.Severity)
    {rest message : List Char} (h : rest.dropWhile isBlank = message) :
    diagnosticParts? ('[' :: (paddedDigits zeros n ++ ']' :: ' ' :: (s.text.toList ++ ':' :: rest)))
      = some (paddedDigits zeros n, s, message) := by
  have hclose (t : List Char) : Text.dropWord? [']'] (']' :: t) = some t :=
    Text.dropWord?_self [']'] t
  have hblanks : dropBlanks? (' ' :: (s.text.toList ++ ':' :: rest))
      = some (s.text.toList ++ ':' :: rest) :=
    dropBlanks?_space (by cases s with | error | warning => rintro c ⟨⟩; decide)
  rw [diagnosticParts?, digits?_paddedDigits (by decide +kernel)]
  simp only [bind, Option.bind_some, hclose, hblanks, severity?_text, dropOptional_self, h]
  rfl

theorem summaryParts?_paddedDigits (e w : Nat) :
    summaryParts? (paddedDigits 0 e ++ ' ' :: ("errors".toList
      ++ ',' :: ' ' :: (paddedDigits 0 w ++ ' ' :: "warnings".toList)))
      = some (paddedDigits 0 e, paddedDigits 0 w) := by
  have hspace : isDecimal ' ' = false := by decide +kernel
  have hfirst (t : List Char) : dropBlanks? (' ' :: ("errors".toList ++ t))
      = some ("errors".toList ++ t) := dropBlanks?_space (by rintro c ⟨⟩; decide)
  have hsecond : dropBlanks? (' ' :: "warnings".toList) = some "warnings".toList :=
    dropBlanks?_space (by rintro c ⟨⟩; decide)
  have herror (t : List Char) : Text.dropWord? "error".toList ("errors".toList ++ t)
      = some ('s' :: t) := Text.dropWord?_self "error".toList ('s' :: t)
  have hcomma (t : List Char) : Text.dropWord? [','] (',' :: t) = some t :=
    Text.dropWord?_self [','] t
  have hwarning : Text.dropWord? "warning".toList "warnings".toList = some ['s'] :=
    Text.dropWord?_self "warning".toList ['s']
  have hnumber : (' ' :: (paddedDigits 0 w ++ ' ' :: "warnings".toList)).dropWhile isBlank
      = paddedDigits 0 w ++ ' ' :: "warnings".toList :=
    Text.dropWhile_isBlank_space fun c hc => Text.isBlank_of_isDigit (isDigit_of_head_eq hc)
  rw [summaryParts?, digits?_paddedDigits hspace]
  simp only [bind, Option.bind_some, hfirst, herror, dropOptional_self, hcomma, hnumber,
    digits?_paddedDigits hspace, hsecond, hwarning]
  rfl

theorem diagnosticParts?_of_head {s : List Char} (h : s.head? ≠ some '[') :
    diagnosticParts? s = none := by
  unfold diagnosticParts?
  split
  · exact absurd rfl h
  · rfl

end ReportLine

/-! ## Printed lines -/

/-- What is printed on a line: a diagnostic, its line number filled up with zeros, a summary, or a
line of context. -/
inductive Printed where
  | diagnostic (width : Nat) (d : Diagnostic)
  | summary (s : Summary)
  | context (text : List Char)

namespace Printed

/-- The characters of the line. -/
def text : Printed → List Char
  | diagnostic width d =>
    ("[" ++ Text.zeroPadded width d.line ++ "] " ++ d.severity.text ++ ": " ++ d.message).toList
  | summary s => (toString s.errors ++ " errors, " ++ toString s.warnings ++ " warnings").toList
  | context text => text

/-- The line can be told from lines of other kinds: numbers fit 64 bits, a message has no blanks at
its ends, and context is blank or begins neither with a bracket nor with a digit. -/
inductive Readable : Printed → Prop where
  | diagnostic {width : Nat} {d : Diagnostic} (number : d.line < Text.bound64)
      (oneLine : '\n' ∉ d.message.toList)
      (ends : ∀ c, d.message.toList.head? = some c ∨ d.message.toList.getLast? = some c →
        isBlank c = false) : Readable (diagnostic width d)
  | summary {s : Summary} (errors : s.errors < Text.bound64) (warnings : s.warnings < Text.bound64) :
      Readable (summary s)
  | context {text : List Char} (oneLine : '\n' ∉ text)
      (start : (∀ c ∈ text, isBlank c = true)
        ∨ ∀ c, text.head? = some c → c ≠ '[' ∧ isDecimal c = false) : Readable (context text)

def diagnostic? : Printed → Option Diagnostic
  | diagnostic _ d => some d
  | _ => none

def summary? : Printed → Option Summary
  | summary s => some s
  | _ => none

/-- Context that is not blank, without the blanks at its end. -/
def note? : Printed → Option String
  | context text => if text.all isBlank then none else some (.ofList (Text.trimEnd text))
  | _ => none

/-- What the line reads as. -/
def reading : Printed → ReportLine
  | diagnostic _ d => .diagnostic d
  | summary s => .summary s
  | context text =>
    if text.all isBlank then .blank else .plain (.ofList (Text.trimEnd text))

/-! ## Reading a printed line -/

theorem text_diagnostic (width : Nat) (d : Diagnostic) : ∃ zeros, (diagnostic width d).text
    = '[' :: (paddedDigits zeros d.line ++ ']' :: ' ' :: (d.severity.text.toList
      ++ ':' :: ' ' :: d.message.toList)) := by
  refine ⟨width - (Nat.toDigits 10 d.line).length, ?_⟩
  have hopen : "[".toList = ['['] := rfl
  have hclose : "] ".toList = [']', ' '] := rfl
  have hcolon : ": ".toList = [':', ' '] := rfl
  simp only [text, String.toList_append, Text.toList_zeroPadded, hopen, hclose, hcolon,
    List.append_assoc, List.cons_append, List.nil_append]

/-- Only the blank before an empty message is trimmed. -/
theorem trimEnd_message (start : List Char) {message : List Char}
    (h : ∀ c, message.head? = some c ∨ message.getLast? = some c → isBlank c = false) :
    ∃ rest, Text.trimEnd (start ++ ':' :: ' ' :: message) = start ++ ':' :: rest
      ∧ rest.dropWhile isBlank = message := by
  have hspace : isBlank ' ' = true := by decide
  cases message with
  | nil =>
      refine ⟨[], ?_, rfl⟩
      have hlist : start ++ [':', ' '] = (start ++ [':']) ++ [' '] := by
        rw [List.append_assoc]; rfl
      rw [hlist, Text.trimEnd_concat, if_pos hspace, Text.trimEnd_concat, if_neg (by decide)]
  | cons c message =>
      refine ⟨' ' :: c :: message, Text.trimEnd_eq_self fun d hd => h d (Or.inr ?_), ?_⟩
      · rw [List.getLast?_append, List.getLast?_cons_cons, List.getLast?_cons_cons] at hd
        simpa only [List.getLast?_cons, Option.some_or] using hd
      · exact Text.dropWhile_isBlank_space fun d hd => h d (Or.inl hd)

theorem ofLine_diagnostic {width : Nat} {d : Diagnostic} (hnumber : d.line < Text.bound64)
    (hends : ∀ c, d.message.toList.head? = some c ∨ d.message.toList.getLast? = some c →
      isBlank c = false) :
    ReportLine.ofLine (diagnostic width d).text = .diagnostic d := by
  obtain ⟨zeros, htext⟩ := text_diagnostic width d
  obtain ⟨rest, htrim, hrest⟩ := trimEnd_message ('[' :: (paddedDigits zeros d.line
    ++ ']' :: ' ' :: d.severity.text.toList)) hends
  have hline : Text.trimEnd (diagnostic width d).text = '[' :: (paddedDigits zeros d.line
      ++ ']' :: ' ' :: (d.severity.text.toList ++ ':' :: rest)) := by
    simpa only [htext, List.cons_append, List.append_assoc] using htrim
  have hcount : ReportLine.count? (paddedDigits zeros d.line) = some d.line :=
    Text.number?_paddedDigits zeros hnumber
  simp only [ReportLine.ofLine, hline, ReportLine.diagnosticParts?_paddedDigits zeros d.line _ hrest,
    hcount, String.ofList_toList]

theorem ofLine_summary {s : Summary} (herrors : s.errors < Text.bound64)
    (hwarnings : s.warnings < Text.bound64) :
    ReportLine.ofLine (summary s).text = .summary s := by
  have htext : (summary s).text = paddedDigits 0 s.errors ++ ' ' :: ("errors".toList
      ++ ',' :: ' ' :: (paddedDigits 0 s.warnings ++ ' ' :: "warnings".toList)) := by
    have hfirst : " errors, ".toList = ' ' :: ("errors".toList ++ [',', ' ']) := rfl
    have hsecond : " warnings".toList = ' ' :: "warnings".toList := rfl
    simp only [text, String.toList_append, Text.toList_toString, hfirst, hsecond,
      List.append_assoc, List.cons_append, List.nil_append]
  have hlast : ∀ c, (summary s).text.getLast? = some c → isBlank c = false := by
    intro c hc
    have hend : (summary s).text.getLast? = some 's' := by
      rw [text, String.toList_append, List.getLast?_append]
      rfl
    rw [hend] at hc
    cases hc; decide
  have hhead : (summary s).text.head? ≠ some '[' := fun hbracket => by
    rw [htext] at hbracket
    exact absurd (ReportLine.isDigit_of_head_eq hbracket) (by decide)
  have hcounts : ReportLine.count? (paddedDigits 0 s.errors) = some s.errors
      ∧ ReportLine.count? (paddedDigits 0 s.warnings) = some s.warnings :=
    ⟨Text.number?_paddedDigits 0 herrors, Text.number?_paddedDigits 0 hwarnings⟩
  have hparts : ReportLine.summaryParts? (summary s).text
      = some (paddedDigits 0 s.errors, paddedDigits 0 s.warnings) := by
    rw [htext]; exact ReportLine.summaryParts?_paddedDigits s.errors s.warnings
  simp only [ReportLine.ofLine, Text.trimEnd_eq_self hlast,
    ReportLine.diagnosticParts?_of_head hhead, hparts, hcounts]

theorem ofLine_context {s : List Char} (h : (∀ c ∈ s, isBlank c = true)
      ∨ ∀ c, s.head? = some c → c ≠ '[' ∧ isDecimal c = false) :
    ReportLine.ofLine s = (context s).reading := by
  cases hblank : s.all isBlank with
  | true => simp only [reading, hblank, if_true, ReportLine.ofLine, Text.trimEnd_eq_nil_iff.2 hblank]; rfl
  | false =>
      have hstart : ∀ c, (Text.trimEnd s).head? = some c → c ≠ '[' ∧ isDecimal c = false := by
        rw [Text.head?_trimEnd hblank]
        rcases h with hall | hstart
        · rw [List.all_eq_true.2 hall] at hblank; cases hblank
        · exact hstart
      have hne : (Text.trimEnd s).isEmpty = false := by
        rw [List.isEmpty_eq_false_iff, ne_eq, Text.trimEnd_eq_nil_iff, hblank]
        exact Bool.false_ne_true
      have hdiagnostic : ReportLine.diagnosticParts? (Text.trimEnd s) = none :=
        ReportLine.diagnosticParts?_of_head fun hc => (hstart _ hc).1 rfl
      have hsummary : ReportLine.summaryParts? (Text.trimEnd s) = none := by
        rw [ReportLine.summaryParts?, ReportLine.digits?_eq_none fun c hc => (hstart c hc).2]
        rfl
      simp only [ReportLine.ofLine, hdiagnostic, hsummary, hne, reading, hblank,
        Bool.false_eq_true, if_false]

/-- A line reads as what was printed on it. -/
theorem ofLine_text {p : Printed} (h : p.Readable) : ReportLine.ofLine p.text = p.reading := by
  cases h with
  | diagnostic number _ ends => exact ofLine_diagnostic number ends
  | summary errors warnings => exact ofLine_summary errors warnings
  | context _ start => exact ofLine_context start

/-- No line feed, so that each printed line is one line of the stream. -/
theorem Readable.oneLine {p : Printed} (h : p.Readable) : ∀ c ∈ p.text, (c == '\n') = false := by
  have hplain {s : String} (hs : Text.Plain s) : ∀ c ∈ s.toList, (c == '\n') = false := by
    intro c hc
    refine beq_eq_false_iff_ne.2 ?_
    rintro rfl
    exact absurd (hs _ hc) (by decide)
  cases h with
  | @diagnostic width d _ oneLine _ =>
      have hseverity : Text.Plain d.severity.text := by
        cases d.severity with
        | error | warning => exact Text.plain_of_all (by decide +kernel)
      have hstart : Text.Plain ("[" ++ Text.zeroPadded width d.line ++ "] " ++ d.severity.text
          ++ ": ") :=
        ((((Text.plain_of_all (by decide)).append (Text.plain_zeroPadded width d.line)).append
          (Text.plain_of_all (by decide))).append hseverity).append (Text.plain_of_all (by decide))
      intro c hc
      rw [text, String.toList_append] at hc
      rcases List.mem_append.1 hc with hc | hc
      · exact hplain hstart c hc
      · exact beq_eq_false_iff_ne.2 fun heq => oneLine (heq ▸ hc)
  | @summary s _ _ =>
      exact hplain ((((Text.plain_toString s.errors).append (Text.plain_of_all (by decide))).append
        (Text.plain_toString s.warnings)).append (Text.plain_of_all (by decide)))
  | context oneLine _ => exact fun c hc => beq_eq_false_iff_ne.2 fun heq => oneLine (heq ▸ hc)

@[simp] theorem diagnostic?_reading (p : Printed) :
    p.reading.diagnostic? = p.diagnostic? := by
  cases p with
  | diagnostic width d => rfl
  | summary s => rfl
  | context s => simp only [reading]; split <;> rfl

@[simp] theorem summary?_reading (p : Printed) : p.reading.summary? = p.summary? := by
  cases p with
  | diagnostic width d => rfl
  | summary s => rfl
  | context s => simp only [reading]; split <;> rfl

@[simp] theorem context?_reading (p : Printed) : p.reading.context? = p.note? := by
  cases p with
  | diagnostic width d => rfl
  | summary s => rfl
  | context s => simp only [reading, note?]; split <;> rfl

@[simp] theorem banner?_reading (p : Printed) : p.reading.banner? = p.note? := by
  cases p with
  | diagnostic width d => rfl
  | summary s => rfl
  | context s => simp only [reading, note?]; split <;> rfl

end Printed

/-! ## Streams -/

/-- How a line ends. -/
inductive LineEnd where
  | lf
  | crlf

def LineEnd.text : LineEnd → List Char
  | lf => ['\n']
  | crlf => ['\r', '\n']

/-- Printed lines that ended, and perhaps a last one that did not. -/
structure Stream where
  ended : List (Printed × LineEnd)
  rest? : Option Printed

namespace Stream

def lines (s : Stream) : List Printed := s.ended.map Prod.fst ++ s.rest?.toList

def text (s : Stream) : List Char :=
  s.ended.flatMap (fun l => l.1.text ++ l.2.text) ++ (s.rest?.map Printed.text).getD []

def diagnostics (s : Stream) : List Diagnostic := s.lines.filterMap Printed.diagnostic?

def summaries (s : Stream) : List Summary := s.lines.filterMap Printed.summary?

/-- A note on the first line. -/
def banner? (s : Stream) : Option String := s.lines.head?.bind Printed.note?

/-- The notes on the lines after the first. -/
def context (s : Stream) : List String := s.lines.tail.filterMap Printed.note?

end Stream

/-! ## Reading a stream -/

theorem ReportLine.ofLine_dropReturn (line : List Char) :
    ofLine (Text.dropReturn line) = ofLine line := by
  simp only [ofLine, Text.trimEnd_dropReturn]

/-- The report that lines of an error stream make. -/
def Report.ofLines (lines : List ReportLine) : Report :=
  let banner? := lines.head?.bind ReportLine.banner?
  { banner? := banner?
    diagnostics := lines.filterMap ReportLine.diagnostic?
    summary? := (lines.filterMap ReportLine.summary?).getLast?
    context := (if banner?.isSome then lines.drop 1 else lines).filterMap ReportLine.context? }

theorem Report.parse_eq (stderr : List Char) :
    parse stderr = ofLines ((Text.lines stderr).map ReportLine.ofLine) := rfl

/-- A blank line at the end is not seen. -/
theorem Report.ofLines_concat_blank (lines : List ReportLine) :
    ofLines (lines ++ [.blank]) = ofLines lines := by
  have hnone {α : Type} (f : ReportLine → Option α) (h : f .blank = none) (ls : List ReportLine) :
      (ls ++ [ReportLine.blank]).filterMap f = ls.filterMap f := by
    rw [List.filterMap_append, List.filterMap_cons_none h, List.filterMap_nil, List.append_nil]
  cases lines with
  | nil => rfl
  | cons l lines =>
      simp only [ofLines, List.cons_append, List.head?_cons, List.drop_succ_cons, List.drop_zero]
      simp only [← List.cons_append, hnone ReportLine.diagnostic? rfl, hnone ReportLine.summary? rfl]
      split
      · rw [hnone ReportLine.context? rfl]
      · rw [hnone ReportLine.context? rfl]

theorem Report.ofLines_reading (ps : List Printed) : ofLines (ps.map Printed.reading)
    = ⟨ps.head?.bind Printed.note?, ps.filterMap Printed.diagnostic?,
      (ps.filterMap Printed.summary?).getLast?, ps.tail.filterMap Printed.note?⟩ := by
  have hmap {α : Type} {f : ReportLine → Option α} {g : Printed → Option α}
      (h : ∀ p : Printed, f p.reading = g p) (ps : List Printed) :
      (ps.map Printed.reading).filterMap f = ps.filterMap g := by
    rw [List.filterMap_map]
    exact congrArg (List.filterMap · ps) (funext h)
  simp only [ofLines, hmap Printed.diagnostic?_reading, hmap Printed.summary?_reading]
  cases ps with
  | nil => rfl
  | cons p ps =>
      simp only [List.map_cons, List.head?_cons, Option.bind_some, Printed.banner?_reading,
        List.drop_succ_cons, List.drop_zero, List.tail_cons]
      cases hnote : p.note? with
      | none =>
          simp only [Option.isSome_none, Bool.false_eq_true, if_false, ← List.map_cons,
            hmap Printed.context?_reading, List.filterMap_cons_none hnote]
      | some note =>
          simp only [Option.isSome_some, if_true, hmap Printed.context?_reading]

namespace Stream

theorem lines_printed {p : Printed} (h : p.Readable) (e : LineEnd) (rest : List Char) :
    (Text.lines (p.text ++ e.text ++ rest)).map ReportLine.ofLine
      = p.reading :: (Text.lines rest).map ReportLine.ofLine := by
  have hline := h.oneLine
  cases e with
  | lf =>
      rw [List.append_assoc, LineEnd.text, List.singleton_append, Text.lines_append_cons,
        Pieces.splitOn_eq_singleton hline, List.map_singleton, List.singleton_append,
        List.map_cons, ReportLine.ofLine_dropReturn, Printed.ofLine_text h]
  | crlf =>
      have hreturn : ∀ c ∈ p.text ++ ['\r'], (c == '\n') = false := by
        intro c hc
        rcases List.mem_append.1 hc with hc | hc
        · exact hline c hc
        · rw [List.mem_singleton.1 hc]; decide
      have htext : p.text ++ LineEnd.crlf.text ++ rest = (p.text ++ ['\r']) ++ '\n' :: rest := by
        simp only [LineEnd.text, List.append_assoc, List.cons_append, List.nil_append]
      rw [htext, Text.lines_append_cons, Pieces.splitOn_eq_singleton hreturn, List.map_singleton,
        List.singleton_append, List.map_cons, Text.dropReturn_concat, Printed.ofLine_text h]

theorem lines_rest {p : Printed} (h : p.Readable) : ∃ blanks,
    (Text.lines p.text).map ReportLine.ofLine ++ blanks = [p.reading]
      ∧ (blanks = [] ∨ blanks = [.blank]) := by
  have hline := h.oneLine
  rw [← Printed.ofLine_text h, Text.lines, Pieces.splitOn_eq_singleton hline]
  cases htext : p.text with
  | nil => exact ⟨[.blank], rfl, Or.inr rfl⟩
  | cons c s => exact ⟨[], rfl, Or.inl rfl⟩

/-- The lines that are read, up to a last one that is empty. -/
theorem lines_text (s : Stream) (h : ∀ p ∈ s.lines, p.Readable) : ∃ blanks,
    (Text.lines s.text).map ReportLine.ofLine ++ blanks = s.lines.map Printed.reading
      ∧ (blanks = [] ∨ blanks = [.blank]) := by
  obtain ⟨ended, rest?⟩ := s
  induction ended with
  | nil =>
      cases rest? with
      | none => exact ⟨[], rfl, Or.inl rfl⟩
      | some p => exact lines_rest (h p List.mem_cons_self)
  | cons l ended ih =>
      obtain ⟨blanks, hlines, hblanks⟩ := ih fun p hp => h p (List.mem_cons_of_mem _ hp)
      refine ⟨blanks, ?_, hblanks⟩
      have htext : (Stream.mk (l :: ended) rest?).text
          = l.1.text ++ l.2.text ++ (Stream.mk ended rest?).text := List.append_assoc _ _ _
      rw [htext, lines_printed (h l.1 List.mem_cons_self), List.cons_append, hlines]
      rfl

/-- The report of what was printed, line by line. -/
theorem parse_text (s : Stream) (h : ∀ p ∈ s.lines, p.Readable) :
    Report.parse s.text = Report.ofLines (s.lines.map Printed.reading) := by
  obtain ⟨blanks, hlines, hblanks⟩ := s.lines_text h
  rw [Report.parse_eq, ← hlines]
  rcases hblanks with rfl | rfl
  · rw [List.append_nil]
  · rw [Report.ofLines_concat_blank]

end Stream

/-! ## Markers -/

theorem firstDisagreement?_eq_none_iff {markers found : List Sample.Marker} (number : Nat)
    (hlen : found.length = markers.length) :
    firstDisagreement? number markers found = none ↔ found = markers := by
  induction markers generalizing number found with
  | nil => 
      rw [List.length_eq_zero_iff.1 hlen]
      exact ⟨fun _ => rfl, fun _ => rfl⟩
  | cons m markers ih =>
      cases found with
      | nil => cases hlen
      | cons f found =>
          rw [firstDisagreement?]
          by_cases hsame : f = m
          · rw [if_pos hsame, ih (number + 1) (Nat.succ.inj hlen), hsame, List.cons.injEq]
            exact (and_iff_right rfl).symm
          · rw [if_neg hsame, List.cons.injEq]
            exact ⟨nofun, fun heq => absurd heq.1 hsame⟩

theorem compareMarkers_eq_ok_iff {r : Report} {markers : List Sample.Marker} :
    compareMarkers r markers = .ok () ↔ r.diagnostics.map Diagnostic.marker = markers
      ∧ ∀ claimed, r.summary? = some claimed → claimed = r.tally := by
  by_cases hlen : (r.diagnostics.map Diagnostic.marker).length = markers.length
  · have hnone := firstDisagreement?_eq_none_iff 1 hlen
    rw [compareMarkers, if_neg (not_not_intro hlen)]
    cases hfirst : firstDisagreement? 1 markers (r.diagnostics.map Diagnostic.marker) with
    | some m =>
        rw [hfirst] at hnone
        exact ⟨nofun, fun h => nomatch hnone.2 h.1⟩
    | none =>
        rw [and_iff_right (hnone.1 hfirst)]
        cases r.summary? with
        | none => exact ⟨fun _ => nofun, fun _ => rfl⟩
        | some claimed =>
            by_cases hclaimed : claimed = r.tally
            · simp only [hclaimed, if_true, Option.some.injEq, forall_eq']
            · simp only [hclaimed, if_false, Option.some.injEq, forall_eq', reduceCtorEq]
  · rw [compareMarkers, if_pos hlen]
    exact ⟨nofun, fun h => absurd (congrArg List.length h.1) hlen⟩

/-- An error stream that is printed line by line, with one summary at most, is taken apart into what
was printed. It agrees with markers exactly if its diagnostics stand for the same lines and
severities in the same order, and the summary, if there is one, gives their numbers. -/
theorem Stream.report_tells_printed (s : Stream) (h : ∀ p ∈ s.lines, p.Readable)
    (hone : s.summaries.length ≤ 1) :
    Report.parse s.text = ⟨s.banner?, s.diagnostics, s.summaries.head?, s.context⟩
      ∧ ∀ markers, compareMarkers (Report.parse s.text) markers = .ok ()
        ↔ s.diagnostics.map (fun d => ⟨d.line, d.severity⟩) = markers
          ∧ ∀ claimed ∈ s.summaries,
            claimed.errors = s.diagnostics.countP (·.severity == .error)
              ∧ claimed.warnings = s.diagnostics.countP (·.severity == .warning) := by
  have hsummary : s.summaries.getLast? = s.summaries.head?
      ∧ ∀ claimed, s.summaries.head? = some claimed ↔ claimed ∈ s.summaries := by
    match hs : s.summaries, hone with
    | [], _ => exact ⟨rfl, fun _ => ⟨nofun, nofun⟩⟩
    | [first], _ =>
        refine ⟨rfl, fun claimed => ?_⟩
        rw [List.mem_singleton, List.head?_cons, Option.some.injEq, eq_comm]
    | _ :: _ :: _, hone => exact absurd hone (by simp only [List.length_cons]; omega)
  have hparse : Report.parse s.text = ⟨s.banner?, s.diagnostics, s.summaries.head?, s.context⟩ := by
    rw [s.parse_text h, Report.ofLines_reading, ← hsummary.1]; rfl
  refine ⟨hparse, fun markers => ?_⟩
  rw [hparse, compareMarkers_eq_ok_iff]
  refine and_congr Iff.rfl (forall_congr' fun claimed => imp_congr (hsummary.2 claimed) ?_)
  simp only [Report.tally, Report.count, List.countP_eq_length_filter]
  exact ⟨fun heq => heq ▸ ⟨rfl, rfl⟩, fun ⟨herrors, hwarnings⟩ => by
    rw [← herrors, ← hwarnings]⟩

/-- A banner, notes, a blank line and a message that reads like a summary, lines ended either way,
and a last line that does not end. -/
def Stream.mixed : Stream where
  ended := [(.context "xas 3.1 ".toList, .crlf),
    (.diagnostic 4 ⟨12, .error, "bad [operand]: 2 errors, 1 warning"⟩, .lf),
    (.context "     12  mov  r1".toList, .crlf), (.context " ".toList, .lf),
    (.summary ⟨1, 1⟩, .crlf)]
  rest? := some (.diagnostic 4 ⟨10012, .warning, ""⟩)

theorem Stream.report_tells_printed_mixed : (∀ p ∈ Stream.mixed.lines, p.Readable)
    ∧ Stream.mixed.summaries.length ≤ 1
    ∧ (Report.parse Stream.mixed.text).banner? = some "xas 3.1"
    ∧ compareMarkers (Report.parse Stream.mixed.text) [⟨12, .error⟩, ⟨10012, .warning⟩] = .ok () := by
  have hreadable : ∀ p ∈ Stream.mixed.lines, p.Readable := by
    simp only [Stream.mixed, Stream.lines, List.map_cons, List.map_nil, Option.toList_some,
      List.cons_append, List.nil_append, List.forall_mem_cons]
    refine ⟨.context (by decide) (.inr ?_), .diagnostic (by decide) (by decide) ?_,
      .context (by decide) (.inr ?_),
      .context (by decide) (.inl (List.forall_mem_singleton.2 (by decide))),
      .summary (by decide) (by decide), .diagnostic (by decide) (by decide) ?_, nofun⟩
    · rintro c ⟨⟩; decide +kernel
    · rintro c (h | h)
      · cases (h : some 'b' = some c); decide
      · cases (h : some 'g' = some c); decide
    · rintro c ⟨⟩; decide +kernel
    · rintro c (h | h) <;> cases h
  have hone : Stream.mixed.summaries.length ≤ 1 := by decide
  obtain ⟨hparse, hmarkers⟩ := Stream.report_tells_printed Stream.mixed hreadable hone
  refine ⟨hreadable, hone, ?_, (hmarkers _).2 ?_⟩
  · rw [hparse]; decide
  · decide

end Tool

end TiBench
