import TiBench.Pieces

/-!
# White space

White space is Unicode's `White_Space` property throughout, in trimming and in splitting.
-/

namespace TiBench.Text

/-- Unicode white space. -/
def isBlank (c : Char) : Bool :=
  let n := c.toNat
  (0x9 ≤ n && n ≤ 0xD) || n == 0x20 || n == 0x85 || n == 0xA0 || n == 0x1680
    || (0x2000 ≤ n && n ≤ 0x200A) || n == 0x2028 || n == 0x2029 || n == 0x202F || n == 0x205F
    || n == 0x3000

/-- A text without the white space at its end. -/
def trimEnd (s : List Char) : List Char := Pieces.dropEndWhile isBlank s

/-- A text without the white space at its two ends. -/
def trim (s : List Char) : List Char := trimEnd (s.dropWhile isBlank)

/-- The stretches of a text that hold no white space. -/
def words (s : List Char) : List (List Char) :=
  (Pieces.splitOn isBlank s).filter (fun w => !w.isEmpty)

end TiBench.Text
