import TiBench.Compare.Error
import TiBench.Text.Utf8

/-!
# Tokens

Text with escape sequences as a sequence of tokens. Texts that spell the same tokens match, as
the two cases of a hexadecimal digit or the two ways to end a line.
-/

namespace TiBench.Compare

/-- A piece of text with escape sequences. -/
inductive Token where
  | literal (c : Char)
  /-- A backslash, an `x` and two hexadecimal digits. -/
  | byte (b : UInt8)
  /-- A backslash and one of the letters `n`, `t`, `r`, a backslash or a quote. -/
  | escape (c : Char)
  /-- Any other sequence after a backslash, as it stands. -/
  | malformed (text : List Char)
  | lineBreak
deriving DecidableEq, Repr

namespace Token

/-- A token as a message shows it. -/
def text : Token → String
  | .literal c => "'" ++ c.toString ++ "'"
  | .byte b => "\\x" ++ Text.hex 2 b.toNat
  | .escape c => "\\" ++ c.toString
  | .malformed s => "malformed `" ++ String.ofList s ++ "`"
  | .lineBreak => "line break"

/-- A token as it stands in a text. -/
def source : Token → List Char
  | .literal c => [c]
  | .byte b => '\\' :: 'x' :: (Text.hex 2 b.toNat).toList
  | .escape c => ['\\', c]
  | .malformed s => s
  | .lineBreak => ['\n']

/-- The characters that a backslash may stand before. -/
def escapable : List Char := ['n', 't', 'r', '\\', '"', '\x27']

/-- The token of two characters after `\x`. -/
def ofHex (high low : Char) : Token :=
  match Text.digit? 16 high, Text.digit? 16 low with
  | some h, some l => .byte (UInt8.ofNat (h * 16 + l))
  | _, _ => .malformed ['\\', 'x', high, low]

/-- The token of a character other than `x` after a backslash. -/
def ofEscape (c : Char) : Token :=
  if c ∈ escapable then .escape c else .malformed ['\\', c]

/-- The tokens of a text. A carriage return before a line feed is part of the line break. -/
def tokenize : List Char → List Token
  | [] => []
  | '\r' :: '\n' :: rest => .lineBreak :: tokenize rest
  | '\n' :: rest => .lineBreak :: tokenize rest
  | ['\\'] => [.malformed ['\\']]
  | '\\' :: 'x' :: high :: low :: rest => ofHex high low :: tokenize rest
  | '\\' :: 'X' :: high :: low :: rest => ofHex high low :: tokenize rest
  | '\\' :: 'x' :: rest => [.malformed ('\\' :: 'x' :: rest)]
  | '\\' :: 'X' :: rest => [.malformed ('\\' :: 'x' :: rest)]
  | '\\' :: c :: rest => ofEscape c :: tokenize rest
  | c :: rest => .literal c :: tokenize rest

/-- The text that tokens stand for. -/
def untokenize (tokens : List Token) : List Char := tokens.flatMap source

/-- The bytes that a token stands for. A malformed one stands for none. -/
def bytes : Token → Bytes
  | .literal c => String.utf8EncodeChar c
  | .byte b => [b]
  | .escape 'n' => [0x0a]
  | .escape 't' => [0x09]
  | .escape 'r' => [0x0d]
  | .escape c => [UInt8.ofNat c.toNat]
  | .malformed _ => []
  | .lineBreak => [0x0a]

end Token

/-- The first place, the first tokens being number `index`, where two sequences differ. -/
def firstTokenDifference? (index : Nat) :
    List Token → List Token → Option (Nat × Option Token × Option Token)
  | [], [] => none
  | [], a :: _ => some (index, none, some a)
  | e :: _, [] => some (index, some e, none)
  | e :: es, a :: as =>
    if e = a then firstTokenDifference? (index + 1) es as else some (index, some e, some a)

/-- Succeeds if two texts have the same tokens. -/
def compareTokens (expected actual : String) : Except CompareError Unit :=
  let shown (t : Option Token) : String := (t.map Token.text).getD "end of text"
  match firstTokenDifference? 0 (Token.tokenize expected.toList) (Token.tokenize actual.toList) with
  | none => .ok ()
  | some (index, e, a) => .error (.tokenMismatch index (shown e) (shown a))

end TiBench.Compare
