import TiBench.Bytes

/-!
# UTF-8

Encoding, strict reading, and forgiving reading, in which each longest start of a character that
cannot be finished, and each byte that starts none, reads as the replacement character.
-/

namespace TiBench.Text

/-- The UTF-8 bytes of a text. -/
def utf8 (s : String) : Bytes := s.toList.flatMap String.utf8EncodeChar

namespace Utf8

/-- Stands for bytes that are no UTF-8. -/
def replacement : Char := '\ufffd'

/-- A byte that continues a character. -/
def isTail (b : UInt8) : Bool := 0x80 ≤ b && b ≤ 0xBF

/-- The number of bytes of a character that starts with `b`, and the least and greatest byte that
may come second. -/
def shape (b : UInt8) : Option (Nat × UInt8 × UInt8) :=
  if b < 0x80 then some (1, 0, 0)
  else if 0xC2 ≤ b && b ≤ 0xDF then some (2, 0x80, 0xBF)
  else if b == 0xE0 then some (3, 0xA0, 0xBF)
  else if b == 0xED then some (3, 0x80, 0x9F)
  else if 0xE1 ≤ b && b ≤ 0xEF then some (3, 0x80, 0xBF)
  else if b == 0xF0 then some (4, 0x90, 0xBF)
  else if 0xF1 ≤ b && b ≤ 0xF3 then some (4, 0x80, 0xBF)
  else if b == 0xF4 then some (4, 0x80, 0x8F)
  else none

/-- Six more bits of a character's code. -/
def extend (code : Nat) (tail : UInt8) : Nat := code * 64 + (tail.toNat - 0x80)

/-- The character at the start of `b :: rest`, if it is whole, and the number of bytes of `rest`
that belong to it or, if it is not whole, to its start. -/
def next (b : UInt8) (rest : Bytes) : Option Char × Nat :=
  match shape b with
  | none => (none, 0)
  | some (1, _) => (some (Char.ofNat b.toNat), 0)
  | some (size, low, high) =>
    match rest with
    | [] => (none, 0)
    | second :: more =>
      if second < low || high < second then (none, 0)
      else
        let tails := (more.take (size - 2)).takeWhile isTail
        if tails.length = size - 2 then
          let lead := b.toNat % (if size = 2 then 32 else if size = 3 then 16 else 8)
          (some (Char.ofNat (tails.foldl extend (extend lead second))), size - 1)
        else (none, tails.length + 1)

/-- The characters read, each `none` a place where the bytes are no UTF-8, after those in `done`,
which is reversed. -/
def readAfter (done : List (Option Char)) : Bytes → List (Option Char)
  | [] => done.reverse
  | b :: rest =>
    let (c, used) := next b rest
    readAfter (c :: done) (rest.drop used)
termination_by bs => bs.length
decreasing_by
  simp only [List.length_drop, List.length_cons]
  omega

/-- The characters of a byte string, `none` where it is no UTF-8. -/
def read (b : Bytes) : List (Option Char) := readAfter [] b

end Utf8

/-- The characters of a byte string, with a replacement character where it is no UTF-8. -/
def ofUtf8Lossy (b : Bytes) : List Char := (Utf8.read b).map (·.getD Utf8.replacement)

/-- The characters of a byte string that is UTF-8 throughout. -/
def ofUtf8? (b : Bytes) : Option (List Char) := (Utf8.read b).mapM id

end TiBench.Text
