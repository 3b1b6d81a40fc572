/-!
# Numbers in text

Reading unsigned numbers within a bound, and writing them in fixed width.
-/

namespace TiBench.Text

/-- One more than the greatest 64 bit number. -/
def bound64 : Nat := 0x10000000000000000

/-- One more than the greatest 16 bit number. -/
def bound16 : Nat := 0x10000

/-- The value of an ASCII digit in a base of at most sixteen. -/
def digit? (base : Nat) (c : Char) : Option Nat :=
  let value :=
    if '0' ≤ c ∧ c ≤ '9' then some (c.toNat - '0'.toNat)
    else if 'a' ≤ c ∧ c ≤ 'f' then some (c.toNat - 'a'.toNat + 10)
    else if 'A' ≤ c ∧ c ≤ 'F' then some (c.toNat - 'A'.toNat + 10)
    else none
  value.filter (· < base)

/-- The value of a text of digits alone. -/
def digits? (base : Nat) (s : List Char) : Option Nat :=
  s.foldl (fun n c => n.bind fun n => (digit? base c).map fun d => n * base + d) (some 0)

/-- The number below `bound` that a text writes: at least one digit, perhaps after a plus sign. -/
def number? (base bound : Nat) (s : List Char) : Option Nat :=
  let body := match s with
    | '+' :: rest => rest
    | _ => s
  if body.isEmpty then none else (digits? base body).filter (· < bound)

/-- A number as a text of upper case hexadecimal digits, `width` of them at least. -/
def hex (width n : Nat) : String :=
  let digits := (Nat.toDigits 16 n).map Char.toUpper
  String.ofList (List.replicate (width - digits.length) '0' ++ digits)

/-- A number in decimal with leading zeros, `width` digits of it at least. -/
def zeroPadded (width n : Nat) : String :=
  let digits := Nat.toDigits 10 n
  String.ofList (List.replicate (width - digits.length) '0' ++ digits)

/-- A text moved to the right end of a column. -/
def padLeft (width : Nat) (s : String) : String :=
  String.ofList (List.replicate (width - s.length) ' ') ++ s

/-- A text at the left end of a column. -/
def padRight (width : Nat) (s : String) : String :=
  s ++ String.ofList (List.replicate (width - s.length) ' ')

end TiBench.Text
