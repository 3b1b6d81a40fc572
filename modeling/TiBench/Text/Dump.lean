import TiBench.Bytes
import TiBench.Text.Number

/-!
# Hexadecimal dumps

Rows of sixteen bytes, each with its address, its bytes in hexadecimal and its printable
characters, and the part of a dump around one byte.
-/

namespace TiBench.Text

/-- The bytes in one row of a dump. -/
def rowSize : Nat := 16

/-- A printable ASCII character as itself, any other byte as a full stop. -/
def printable (b : UInt8) : Char :=
  if 32 ≤ b && b < 127 then Char.ofNat b.toNat else '.'

/-- One row: address, bytes, room for the bytes that a short row lacks, and characters. -/
def dumpRow (address : Nat) (row : Bytes) : String :=
  hex 4 address ++ " : " ++ String.join (row.map fun b => hex 2 b.toNat ++ " ")
    ++ String.join (List.replicate (rowSize - row.length) "   ")
    ++ "| " ++ String.ofList (row.map printable) ++ "\n"

/-- All of `data`, its first byte at the address `start`. -/
def hexBlock (start : Nat) (data : Bytes) : String :=
  String.join ((Pieces.chunks rowSize data).mapIdx fun k row =>
    dumpRow (sizeSum start (rowSize * k)) row)

/-- The rows before, at and after the one that holds the byte at `offset`, as far as they exist. -/
def hexWindow (data : Bytes) (offset : Nat) : String :=
  let first := (offset / rowSize - 1) * rowSize
  if data.length ≤ first then "(past end of data)\n"
  else hexBlock first ((data.drop first).take (3 * rowSize))

/-- Bytes as ASCII text. A backslash, a byte outside ASCII and, if `controls` is set, a control
character are written as a backslash, an `x` and two hexadecimal digits. -/
def escapeBytes (controls : Bool) (data : Bytes) : String :=
  let (low, high) := if controls then (0x20, 0x7e) else (0x00, 0x7f)
  String.join (data.map fun b =>
    if low ≤ b.toNat ∧ b.toNat ≤ high ∧ b ≠ 0x5c then (Char.ofNat b.toNat).toString
    else "\\x" ++ hex 2 b.toNat)

end TiBench.Text
