import TiBench.Json.Value
import TiBench.Pieces
import TiBench.Text.Number

/-!
# JSON tokens

The words of a JSON text. Between them there may be blanks: the ASCII white space characters.
-/

namespace TiBench.Json

/-- A word of a JSON text. -/
inductive Token where
  | openArray
  | closeArray
  | openObject
  | closeObject
  | comma
  | colon
  | string (s : String)
  /-- Any other value without parts. -/
  | scalar (v : Value)

namespace Token

/-- A character that may stand between tokens. -/
def isBlank (c : Char) : Bool := (9 ≤ c.toNat && c.toNat ≤ 13) || c == ' '

/-- One more than the greatest mantissa. -/
def mantissaBound : Nat := Text.bound64

/-- The greatest exponent that is told apart from greater ones. -/
def maxExponent : Nat := 32767

/-- A mantissa and a power of ten, while digits are read. -/
structure Scaled where
  mantissa : Nat
  exponent : Int

namespace Scaled

/-- A digit before the point. One that the mantissa cannot take counts as a power of ten. -/
def pushInteger (n : Scaled) (d : Nat) : Scaled :=
  let m := n.mantissa * 10 + d
  if m < mantissaBound then { n with mantissa := m } else { n with exponent := n.exponent + 1 }

/-- A digit after the point. One that the mantissa cannot take is lost. -/
def pushFraction (n : Scaled) (d : Nat) : Scaled :=
  let m := n.mantissa * 10 + d
  if m < mantissaBound then ⟨m, n.exponent - 1⟩ else n

end Scaled

/-- The values of the digits at the start of a text, and what follows them. -/
def digitRun (s : List Char) : List Nat × List Char :=
  let run := s.takeWhile Char.isDigit
  (run.filterMap (Text.digit? 10), s.drop run.length)

/-- As `digitRun`, if there is a digit. -/
def digits? (s : List Char) : Option (List Nat × List Char) :=
  let (ds, rest) := digitRun s
  if ds.isEmpty then none else some (ds, rest)

/-- The digits before the point: a zero alone, or digits of which the first is not zero. -/
def integer? (s : List Char) : Option (List Nat × List Char) :=
  match s with
  | '0' :: rest => some ([0], rest)
  | _ => digits? s

/-- The digits after a point, if there is one at the start of a text. -/
def fraction? (s : List Char) : Option (List Nat × List Char) :=
  match s with
  | '.' :: rest => digits? rest
  | _ => some ([], s)

/-- The exponent written at the start of a text, zero if there is none. -/
def exponent? (s : List Char) : Option (Int × List Char) :=
  let value (ds : List Nat) : Nat := min maxExponent (ds.foldl (fun n d => n * 10 + d) 0)
  match s with
  | 'e' :: rest | 'E' :: rest =>
    match rest with
    | '-' :: rest => (digits? rest).map fun (ds, rest) => (-(value ds : Int), rest)
    | '+' :: rest => (digits? rest).map fun (ds, rest) => (value ds, rest)
    | _ => (digits? rest).map fun (ds, rest) => (value ds, rest)
  | _ => some (0, s)

/-- The number at the start of a text, without its sign. -/
def number? (isNegative : Bool) (s : List Char) : Option (Number × List Char) := do
  let (whole, rest) ← integer? s
  let (part, rest) ← fraction? rest
  let (e, rest) ← exponent? rest
  let n := part.foldl Scaled.pushFraction (whole.foldl Scaled.pushInteger ⟨0, 0⟩)
  return (⟨isNegative, n.mantissa, n.exponent + e⟩, rest)

/-- The first of the numbers that stand for the first half of a character. -/
def highHalf : Nat := 0xD800

/-- The first of the numbers that stand for the second half of a character. -/
def lowHalf : Nat := 0xDC00

/-- One more than the numbers that stand for half a character. -/
def afterHalves : Nat := 0xE000

/-- Whether a number stands for half a character. -/
def isHalf (n : Nat) : Bool := highHalf ≤ n && n < afterHalves

/-- The character that two halves make, if they are a first and a second one. -/
def joinHalves? (high low : Nat) : Option Char :=
  if highHalf ≤ high ∧ high < lowHalf ∧ lowHalf ≤ low ∧ low < afterHalves then
    some (Char.ofNat (0x10000 + (high - highHalf) * 1024 + (low - lowHalf)))
  else none

/-- The character that a letter after a backslash stands for. -/
def escaped? : Char → Option Char
  | '"' => some '"'
  | '\\' => some '\\'
  | '/' => some '/'
  | 'b' => some (Char.ofNat 8)
  | 'f' => some (Char.ofNat 12)
  | 'n' => some '\n'
  | 'r' => some '\r'
  | 't' => some '\t'
  | _ => none

/-- The characters up to the quote that ends a string, after those in `done`, which is reversed, and
what follows the quote. After `\\u` there are four hexadecimal digits; a character outside the first
65536 takes two such groups. -/
def stringAfter? (done : List Char) : List Char → Option (List Char × List Char)
  | [] => none
  | '"' :: rest => some (done.reverse, rest)
  | '\\' :: 'u' :: a :: b :: c :: d :: rest =>
    match Text.digits? 16 [a, b, c, d] with
    | none => none
    | some n =>
      if isHalf n then
        match rest with
        | '\\' :: 'u' :: e :: f :: g :: h :: rest =>
          match (Text.digits? 16 [e, f, g, h]).bind (joinHalves? n) with
          | some c => stringAfter? (c :: done) rest
          | none => none
        | _ => none
      else stringAfter? (Char.ofNat n :: done) rest
  | '\\' :: c :: rest =>
    match escaped? c with
    | some c => stringAfter? (c :: done) rest
    | none => none
  | ['\\'] => none
  | c :: rest => if c.toNat < 32 then none else stringAfter? (c :: done) rest

/-- The token that starts with `c`, and what follows it. -/
def next? (c : Char) (rest : List Char) : Option (Token × List Char) :=
  match c with
  | '[' => some (openArray, rest)
  | ']' => some (closeArray, rest)
  | '\x7b' => some (openObject, rest)
  | '\x7d' => some (closeObject, rest)
  | ',' => some (comma, rest)
  | ':' => some (colon, rest)
  | '"' => (stringAfter? [] rest).map fun (s, rest) => (string (.ofList s), rest)
  | '-' => (number? true rest).map fun (n, rest) => (scalar (.number n), rest)
  | 't' => (Pieces.dropStart? ['r', 'u', 'e'] rest).map fun rest => (scalar (.bool true), rest)
  | 'f' =>
    (Pieces.dropStart? ['a', 'l', 's', 'e'] rest).map fun rest => (scalar (.bool false), rest)
  | 'n' => (Pieces.dropStart? ['u', 'l', 'l'] rest).map fun rest => (scalar .null, rest)
  | _ => (number? false (c :: rest)).map fun (n, rest) => (scalar (.number n), rest)

/-- The tokens of a text, at most `fuel` of them and of the blanks between them. -/
def scanAfter? : (fuel : Nat) → (done : List Token) → List Char → Option (List Token)
  | _, done, [] => some done.reverse
  | 0, _, _ => none
  | fuel + 1, done, c :: rest =>
    if isBlank c then scanAfter? fuel done rest
    else do
      let (t, rest) ← next? c rest
      scanAfter? fuel (t :: done) rest

/-- The tokens of a text. -/
def scan? (s : List Char) : Option (List Token) := scanAfter? s.length [] s

end Token

end TiBench.Json
