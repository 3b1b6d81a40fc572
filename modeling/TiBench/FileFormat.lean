import TiBench.Bytes
import TiBench.Text.Blank
import TiBench.Text.Number

/-!
# File formats

A file is a memory image or a sequence of records of display or internal content, in slots of one
length or each with a length of its own. A format is written the way a catalog shows it.
-/

namespace TiBench

/-- What the bytes of a record are: lines of text, or binary values. -/
inductive Content where
  | display
  | internal
deriving DecidableEq, Repr

/-- Whether all records of a file have one length. -/
inductive Family where
  | fixed
  | variable
deriving DecidableEq, Repr

/-- The greatest record length. A variable record's length byte must differ from the byte that
ends a sector, and leave room for it. -/
def Family.maxLength : Family → Nat
  | .fixed => 255
  | .variable => 254

/-- How the unused end of a slot is filled. Spaces are taken off again when a record is read,
zeros stay. -/
inductive Padding where
  | space
  | zero
deriving DecidableEq, Repr

/-- The byte that fills a slot. -/
def Padding.byte : Padding → UInt8
  | .space => 0x20
  | .zero => 0

/-- The format of a file of records. -/
structure RecordFormat where
  content : Content
  family : Family
  length : Nat
  length_pos : 0 < length
  length_le : length ≤ family.maxLength
deriving DecidableEq

/-- The format of a file. -/
inductive FileFormat where
  | program
  | records (format : RecordFormat)
deriving DecidableEq

/-- Why a text or a length gives no format. -/
inductive FormatError where
  | unrecognized (text : String)
  | recordLength (length : Nat)
deriving DecidableEq, Repr

/-- The wording of an error. -/
def FormatError.message : FormatError → String
  | .unrecognized text => "file format `" ++ text ++ "` is not recognized"
  | .recordLength length =>
    "record length " ++ toString length ++ " is not allowed for this record family"

namespace RecordFormat

/-- The format with these properties, if the family allows the length. -/
def make (content : Content) (family : Family) (length : Nat) : Except FormatError RecordFormat :=
  if h : 0 < length ∧ length ≤ family.maxLength then .ok ⟨content, family, length, h.1, h.2⟩
  else .error (.recordLength length)

/-- Display records are filled up with spaces, internal ones with zeros. -/
def padding (f : RecordFormat) : Padding :=
  match f.content with
  | .display => .space
  | .internal => .zero

/-- The number of records a sector holds at most, which must fit a byte. A variable record takes a
length byte, and a sector of them an end byte. -/
def perSector (f : RecordFormat) : Nat :=
  match f.family with
  | .fixed => min 255 (sectorSize / f.length)
  | .variable => (sectorSize - 1) / (f.length + 1)

end RecordFormat

namespace FileFormat

/-- The record length, zero for a program. -/
def recordLength : FileFormat → Nat
  | .program => 0
  | .records f => f.length

/-- How slots are filled up. -/
def padding : FileFormat → Padding
  | .program => .zero
  | .records f => f.padding

/-- The number of records in a sector, zero for a program. -/
def perSector : FileFormat → Nat
  | .program => 0
  | .records f => f.perSector

/-- The format as a catalog shows it. -/
def text : FileFormat → String
  | .program => "PROGRAM"
  | .records f =>
    (match f.content with
      | .display => "DIS/"
      | .internal => "INT/")
    ++ (match f.family with
      | .fixed => "FIX "
      | .variable => "VAR ")
    ++ toString f.length

/-- A character in upper case, as far as that decides whether a text is a format: the letters
whose upper case is made of ASCII letters. -/
def upper (c : Char) : List Char :=
  if c.toNat < 128 then [c.toUpper]
  else match c.toNat with
    | 0xDF => ['S', 'S']
    | 0x131 => ['I']
    | 0x17F => ['S']
    | 0xFB00 => ['F', 'F']
    | 0xFB01 => ['F', 'I']
    | 0xFB02 => ['F', 'L']
    | 0xFB03 => ['F', 'F', 'I']
    | 0xFB04 => ['F', 'F', 'L']
    | 0xFB05 => ['S', 'T']
    | 0xFB06 => ['S', 'T']
    | _ => [c]

/-- The kind of content that a text names before its slash, and the text after it. A text without
a slash names none. -/
def parseContent? (s : List Char) : Option (Option Content × List Char) :=
  match Pieces.splitOnce (· == '/') s with
  | none => some (none, s)
  | some (kind, rest) =>
    if kind = ['D', 'I', 'S'] then some (some .display, Text.trim rest)
    else if kind = ['I', 'N', 'T'] then some (some .internal, Text.trim rest)
    else none

/-- The record family and length that a text names. -/
def parseFamily? : List Char → Option (Family × Nat)
  | 'F' :: 'I' :: 'X' :: rest => (Text.number? 10 Text.bound64 (Text.trim rest)).map (.fixed, ·)
  | 'V' :: 'A' :: 'R' :: rest => (Text.number? 10 Text.bound64 (Text.trim rest)).map (.variable, ·)
  | _ => none

/-- Records without a named kind of content are internal if fixed and display if variable. -/
def usualContent : Family → Content
  | .fixed => .internal
  | .variable => .display

/-- The format that a text names, in any case and with or without a blank before the length. -/
def parse (s : String) : Except FormatError FileFormat :=
  let norm := (Text.trim s.toList).flatMap upper
  if norm = "PROGRAM".toList ∨ norm = "PRG".toList then .ok .program
  else
    match (do let (kind, rest) ← parseContent? norm; return (kind, ← parseFamily? rest)) with
    | none => .error (.unrecognized s)
    | some (kind, family, length) =>
      (RecordFormat.make (kind.getD (usualContent family)) family length).map .records

end FileFormat

end TiBench
