import TiBench.Bytes
import TiBench.Text.Blank
import TiBench.Text.Number

/-!
# Masks

A mask is a set of byte offsets, given by ranges. It keeps the ranges themselves, in ascending
order, so that equal lists of ranges in any order give equal masks.
-/

namespace TiBench.Compare

/-- A run of bytes. -/
structure Range where
  offset : Nat
  length : Nat
deriving DecidableEq, Repr

namespace Range

/-- The order of ranges: by offset, then by length. -/
def le (a b : Range) : Bool := a.offset < b.offset || (a.offset == b.offset && a.length ≤ b.length)

/-- The offset after the last byte. A run that reaches the last offset of all wraps around. -/
def stop (r : Range) : Nat := sizeSum r.offset r.length

/-- Whether a byte lies in the run. -/
def contains (r : Range) (i : Nat) : Bool := r.offset ≤ i && i < r.stop

end Range

/-- The bytes that a comparison leaves out, as runs in ascending order. -/
structure Mask where
  ranges : List Range
deriving DecidableEq, Repr

namespace Mask

/-- The mask of no bytes. -/
def empty : Mask := ⟨[]⟩

/-- A range put in its place among ranges in order. -/
def place (r : Range) : List Range → List Range
  | [] => [r]
  | s :: more => if r.le s then r :: s :: more else s :: place r more

/-- The mask with one more range. A range without bytes changes nothing. -/
def insert (m : Mask) (r : Range) : Mask := if r.length = 0 then m else ⟨place r m.ranges⟩

/-- The mask of all these ranges. -/
def ofRanges (ranges : List Range) : Mask := ranges.foldl insert empty

/-- The bytes of either mask. -/
def merge (a b : Mask) : Mask := b.ranges.foldl insert a

/-- Whether a byte is left out. -/
def contains (m : Mask) (i : Nat) : Bool := m.ranges.any (·.contains i)

/-- Whether no byte is left out. -/
def isEmpty (m : Mask) : Bool := m.ranges.isEmpty

/-- A number in decimal, or in hexadecimal after `0x` or `0X`, perhaps between blanks. -/
def parseNumber? (s : List Char) : Option Nat :=
  match Text.trim s with
  | '0' :: 'x' :: rest | '0' :: 'X' :: rest => Text.number? 16 Text.bound64 rest
  | s => Text.number? 10 Text.bound64 s

/-- A range as an offset, a colon and a length. -/
def parseRange? (item : List Char) : Option Range := do
  let (offset, length) ← Pieces.splitOnce (· == ':') item
  return ⟨← parseNumber? offset, ← parseNumber? length⟩

/-- An item of a list that is not a range. -/
structure BadRange where
  item : String
deriving DecidableEq, Repr

/-- The mask of a list of ranges with commas between them. Empty items are passed over. -/
def parse (s : String) : Except BadRange Mask := do
  let items := ((Pieces.splitOn (· == ',') s.toList).map Text.trim).filter (fun i => !i.isEmpty)
  let ranges ← items.mapM fun item =>
    match parseRange? item with
    | some r => .ok r
    | none => .error ⟨String.ofList item⟩
  return ofRanges ranges

end Mask

end TiBench.Compare
