import TiBench.Text.Utf8
import TiBench.Zip.Crc32
import TiBench.Zip.Field

/-!
# Listed entries

What the directory of an archive says of an entry. Extra fields, each with a kind and a size before
it, correct the sizes, the offset, the method, the name or the comment; those of other kinds are
passed over.
-/

namespace TiBench.Zip

/-- What the directory says of an entry. -/
structure Listed where
  /-- The bytes of the name. -/
  rawName : Bytes
  name : String
  comment : String
  method : Nat
  /-- The number of bytes in the content. -/
  plainSize : Nat
  /-- The number of bytes that stand in the archive for the content. -/
  storedSize : Nat
  offset : Nat
  /-- The content is locked by a password. -/
  isLocked : Bool

/-- The number that stands where the real one has more than 32 bits. -/
def wideMark : Nat := 0xffffffff

/-- A number of 64 bits read in place of `old`, if it is there for all numbers or for this one. -/
def wide? (forAll : Bool) (old : Nat) (b : Bytes) : Option (Nat × Bytes) :=
  if forAll ∨ old = wideMark then (number? b 0 8).map (·, b.drop 8) else some (old, b)

/-- The text that replaces a name or a comment, after a checksum of what it replaces. -/
def replacement? (old field : Bytes) : Option (List Char) := do
  guard ((← number? field 1 4) = (crc32 old).toNat)
  Text.ofUtf8? (field.drop 5)

/-- The number of bytes that a field with points in time takes up. Its first byte has a bit for each
time in it; only the first three are known, and what follows them is read as further fields. -/
def timesSize? (size : Nat) (b : Bytes) : Option Nat := do
  let flags ← b.head?
  let count (n : Nat) : Nat := (List.range n).countP flags.toNat.testBit
  guard (size = 5 ∨ size = 1 + 4 * count 8)
  let taken := if size = 5 then 5 else 1 + 4 * count 3
  if taken ≤ b.length then some taken else none

namespace Listed

/-- After a field with numbers of 64 bits: for all three of the numbers if it has room for them, or
for those whose place has the mark. -/
def withWide? (e : Listed) (field : Bytes) : Option Listed := do
  let forAll := decide (24 ≤ field.length)
  let (plainSize, rest) ← wide? forAll e.plainSize field
  let (storedSize, rest) ← wide? forAll e.storedSize rest
  let (offset, _) ← wide? forAll e.offset rest
  return { e with plainSize := plainSize, storedSize := storedSize, offset := offset }

/-- After a field that says how the content is locked, and what its method was before. -/
def withLock? (e : Listed) (field : Bytes) : Option Listed := do
  let version ← number? field 0 2
  let vendor ← number? field 2 2
  let strength ← number? field 4 1
  let method ← number? field 5 2
  guard (field.length = 7 ∧ version ∈ [1, 2] ∧ vendor = 0x4541 ∧ strength ∈ [1, 2, 3])
  return { e with method := method, isLocked := true }

/-- After a field with three points in time of 64 bits. -/
def withDates? (e : Listed) (field : Bytes) : Option Listed := do
  guard (field.length = 32 ∧ number? field 4 2 = some 1 ∧ number? field 6 2 = some 24)
  return e

/-- After a field of a kind. -/
def withField? (e : Listed) (kind : Nat) (field : Bytes) : Option Listed :=
  match kind with
  | 0x0001 => e.withWide? field
  | 0x000a => e.withDates? field
  | 0x9901 => e.withLock? field
  | 0x6375 => do
    return { e with comment := .ofList (← replacement? (Text.utf8 e.comment) field) }
  | 0x7075 => do
    let name ← replacement? e.rawName field
    return { e with rawName := field.drop 5, name := .ofList name }
  | _ => some e

/-- After the field of a kind and a size at the start of `b`, with the number of bytes that it takes
up. -/
def step? (e : Listed) (kind size : Nat) (b : Bytes) : Option (Listed × Nat) :=
  if kind = 0x5455 then (timesSize? size b).map (e, ·)
  else if b.length < size then none
  else (e.withField? kind (b.take size)).map (·, size)

/-- After all fields. A single byte at the end is no field. -/
def withFields? (e : Listed) : Bytes → Option Listed
  | [] | [_] => some e
  | k₀ :: k₁ :: s₀ :: s₁ :: rest =>
    match e.step? (ofLittle [k₀, k₁]) (ofLittle [s₀, s₁]) rest with
    | some (e, taken) => e.withFields? (rest.drop taken)
    | none => none
  | _ => none
termination_by b => b.length
decreasing_by simp; omega

/-- The method of a locked entry, until an extra field says what it was before. -/
def lockMethod : Nat := 99

/-- The entry is listed as locked, but nothing says how. -/
def lacksLock (e : Listed) : Bool := e.method == lockMethod && !e.isLocked

end Listed

end TiBench.Zip
