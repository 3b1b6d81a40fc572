import TiBench.Zip.EndRecord
import TiBench.Zip.Listed
import TiBench.Zip.Source

/-!
# Directories of archives

Reading what the directory of an archive lists.
-/

namespace TiBench.Zip

/-- An entry of an archive. -/
structure Entry where
  name : String
  /-- The content cannot be read without a password. -/
  isLocked : Bool
  method : Nat
  crc : Nat
  /-- The number of bytes that stand in the archive for the content. -/
  size : Nat
  /-- Where the header before the content starts. -/
  start : Nat

/-- The characters that the bytes from 128 on stand for in texts without the flag for UTF-8. -/
def highCharacters : String :=
  "ÇüéâäàåçêëèïîìÄÅÉæÆôöòûùÿÖÜ¢£¥₧ƒáíóúñÑªº¿⌐¬½¼¡«»░▒▓│┤╡╢╖╕╣║╗╝╜╛┐"
  ++ "└┴┬├─┼╞╟╚╔╩╦╠═╬╧╨╤╥╙╘╒╓╫╪┘┌█▄▌▐▀αßΓπΣσµτΦΘΩδ∞φε∩≡±≥≤⌠⌡÷≈°∙·√ⁿ²■\u00a0"

/-- The text of a name or a comment in a directory. -/
def listedText (flags : Nat) (b : Bytes) : String :=
  if flags / utf8Flag % 2 = 1 then String.ofList (Text.ofUtf8Lossy b)
  else
    let high := highCharacters.toList.toArray
    String.ofList (b.map fun c =>
      if c < 128 then Char.ofNat c.toNat else high.getD (c.toNat - 128) Text.Utf8.replacement)

/-- The entry listed at the start of `listing`, and what follows. It must start before the
directory. -/
def readEntry? (extent : Extent) (listing : Bytes) : Option (Entry × Bytes) := do
  guard (listing.take 4 = listedMark)
  let flags ← number? listing 8 2
  let method ← number? listing 10 2
  let crc ← number? listing 16 4
  let storedSize ← number? listing 20 4
  let plainSize ← number? listing 24 4
  let nameSize ← number? listing 28 2
  let extraSize ← number? listing 30 2
  let commentSize ← number? listing 32 2
  let offset ← number? listing 42 4
  let rest := listing.drop 46
  let rawName := rest.take nameSize
  let extra := (rest.drop nameSize).take extraSize
  let comment := (rest.drop (nameSize + extraSize)).take commentSize
  let size := nameSize + extraSize + commentSize
  guard (size ≤ rest.length)
  let listed : Listed :=
    ⟨rawName, listedText flags rawName, listedText flags comment, method, plainSize, storedSize,
      offset, false⟩
  let listed ← listed.withFields? extra
  let start := extent.base + listed.offset
  guard (!listed.lacksLock ∧ start < extent.start)
  let isLocked := flags % 2 = 1 ∨ listed.isLocked
  return (⟨listed.name, isLocked, listed.method, crc, listed.storedSize, start⟩, rest.drop size)

/-- The entries, so many of them, that are listed at the start of `listing`. -/
def readEntries? (extent : Extent) : (n : Nat) → (listing : Bytes) → Option (List Entry)
  | 0, _ => some []
  | n + 1, listing => do
    let (e, rest) ← readEntry? extent listing
    return e :: (← readEntries? extent n rest)

end TiBench.Zip
