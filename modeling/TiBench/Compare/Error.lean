import TiBench.Text.Number

/-!
# Differences

Why two artifacts do not match: the first place that differs, and what stands there.
-/

namespace TiBench.Compare

/-- Why a comparison fails or cannot be made. -/
inductive CompareError where
  | lengthMismatch (reference result tolerance : Nat)
  /-- Two bytes differ. The windows are dumps of both sides around them. -/
  | mismatch (offset : Nat) (expected actual : UInt8) (expectedWindow actualWindow : String)
  | formatMismatch (line : Nat) (expected actual : String)
  | missingEntry (name : String)
  | entryMismatch (name detail : String)
  | tokenMismatch (index : Nat) (expected actual : String)
  | badMask (item : String)
  /-- Bytes that are no archive, or one of a kind that cannot be read. -/
  | badArchive
  /-- The content of an entry is damaged. -/
  | badEntry
deriving DecidableEq, Repr

/-- The wording of an error. -/
def CompareError.message : CompareError → String
  | .lengthMismatch reference result tolerance =>
    s!"length mismatch: original {reference} bytes, result {result} bytes, tolerance {tolerance}"
  | .mismatch offset expected actual expectedWindow actualWindow =>
    "mismatch at offset 0x" ++ Text.hex 4 offset ++ ", original 0x" ++ Text.hex 2 expected.toNat
      ++ ", result 0x" ++ Text.hex 2 actual.toNat ++ "\noriginal:\n" ++ expectedWindow
      ++ "result:\n" ++ actualWindow
  | .formatMismatch line expected actual =>
    s!"line {line} differs:\n  expected: {expected}\n  actual:   {actual}"
  | .missingEntry name => "container entry `" ++ name ++ "` is missing"
  | .entryMismatch name detail => "container entry `" ++ name ++ "` differs: " ++ detail
  | .tokenMismatch index expected actual =>
    s!"token {index} differs: expected {expected}, actual {actual}"
  | .badMask item => "bad mask range `" ++ item ++ "`"
  | .badArchive => "zip error: not a readable archive"
  | .badEntry => "i/o error: damaged entry"

end TiBench.Compare
