import TiBench.FileFormat

/-!
# Payloads and records

A flat payload as records, and back. A program is its payload. Internal records are consecutive
slices of the record length, the last perhaps shorter. Display records are the lines of a text.
-/

namespace TiBench

/-- A line of fixed display records, counted from one, that ends in a space, which reading would
take for padding. -/
structure PaddedLine where
  line : Nat
deriving DecidableEq, Repr

namespace Payload

/-- The byte that ends a line. -/
def lineFeed : UInt8 := 0x0a

/-- The lines of a payload. A payload that is empty, or that ends in a line feed, has no further
line there. -/
def lines (data : Bytes) : List Bytes :=
  let pieces := Pieces.splitOn (· == lineFeed) data
  if pieces.getLast? = some [] then pieces.dropLast else pieces

/-- A payload as records of a format. -/
def split (f : FileFormat) (data : Bytes) : Except PaddedLine (List Bytes) :=
  match f with
  | .program => .ok [data]
  | .records f =>
    match f.content with
    | .internal => .ok (Pieces.chunks f.length data)
    | .display =>
      let lines := lines data
      match f.family with
      | .variable => .ok lines
      | .fixed =>
        match lines.findIdx? (fun l => l.getLast? == some Padding.space.byte) with
        | some i => .error ⟨i + 1⟩
        | none => .ok lines

/-- Records as a payload: display records become lines, each with its line feed. -/
def join (f : FileFormat) (records : List Bytes) : Bytes :=
  match f with
  | .program => records.flatten
  | .records f =>
    match f.content with
    | .internal => records.flatten
    | .display => records.flatMap (· ++ [lineFeed])

end Payload

end TiBench
