import TiBench.Zip.Directory
import TiBench.Zip.Inflate

/-!
# Archives

Reading archives whose entries are stored or deflated. To open an archive, only its directory is
read; whether the content of an entry can be had shows when it is asked for.
-/

namespace TiBench.Zip

/-- An archive with what its directory lists. -/
structure Archive where
  bytes : Bytes
  entries : List Entry

/-- Why the content of an entry cannot be had. -/
inductive EntryError where
  /-- There is no header where the directory says. -/
  | noHeader
  /-- The entry is locked, or its method is not known. -/
  | unsupported
  /-- The bytes of the entry are damaged. -/
  | damaged
deriving DecidableEq, Repr

/-- Where the content is after the start of the header before it. -/
def headerSize? (header : Bytes) : Option Nat := do
  guard (header.take 4 = entryMark)
  return 30 + (← number? header 26 2) + (← number? header 28 2)

namespace Archive

/-- The archive in a byte string. The last end record that leads to a directory counts. -/
def read? (bytes : Bytes) : Option Archive :=
  (places endMark 0 bytes).reverse.findSome? fun place => do
    let extent ← (← EndRecord.read? bytes place).extent? bytes
    return ⟨bytes, ← readEntries? extent extent.count (bytes.drop extent.start)⟩

/-- The entry with a name; of several, the last. -/
def find? (a : Archive) (name : String) : Option Entry := a.entries.reverse.find? (·.name == name)

/-- The bytes that stand in the archive for the content of an entry. -/
def stored (a : Archive) (e : Entry) : Except EntryError Bytes :=
  let header := a.bytes.drop e.start
  match headerSize? header with
  | some size => .ok ((header.drop size).take e.size)
  | none => .error .noHeader

/-- The content of an entry. -/
def content (a : Archive) (e : Entry) : Except EntryError Bytes := do
  let stored ← a.stored e
  let data ← if e.isLocked then .error .unsupported
    else if e.method = 0 then .ok stored
    else if e.method = 8 then (inflate? stored).elim (.error .damaged) .ok
    else .error .unsupported
  if (crc32 data).toNat = e.crc then return data else .error .damaged

end Archive

end TiBench.Zip
