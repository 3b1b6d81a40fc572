import TiBench.Text.Utf8
import TiBench.Zip.Crc32
import TiBench.Zip.Field

/-!
# Writing archives

Archives of stored entries: the entries one after the other, each with a header before it, then the
directory that lists them, then the record that says where the directory is.
-/

namespace TiBench.Zip

/-- An entry before it is written. -/
structure Source where
  name : String
  data : Bytes

/-- The flag of an entry whose name is not ASCII. -/
def utf8Flag : Nat := 0x800

namespace Source

/-- The flags of the entry. -/
def flags (e : Source) : Nat := if e.name.toList.all (·.toNat < 128) then 0 else utf8Flag

/-- What both headers of an entry say alike: version, flags, method, a fixed date, checksum and
sizes. -/
def summary (e : Source) : Bytes :=
  little 2 10 ++ little 2 e.flags ++ little 2 0 ++ little 2 0 ++ little 2 0x21
    ++ little 4 (crc32 e.data).toNat ++ little 4 e.data.length ++ little 4 e.data.length
    ++ little 2 (Text.utf8 e.name).length ++ little 2 0

/-- The entry with the header before it. -/
def localPart (e : Source) : Bytes := entryMark ++ e.summary ++ Text.utf8 e.name ++ e.data

/-- What the directory says of the entry that starts at `offset`. -/
def directoryPart (e : Source) (offset : Nat) : Bytes :=
  listedMark ++ little 2 0x030a ++ e.summary ++ little 2 0 ++ little 2 0 ++ little 2 0
    ++ little 4 (0o100644 * 65536) ++ little 4 offset ++ Text.utf8 e.name

end Source

/-- The directory of entries, the first of which starts at `offset`. -/
def directory (offset : Nat) : List Source → Bytes
  | [] => []
  | e :: more => e.directoryPart offset ++ directory (offset + e.localPart.length) more

/-- The archive of entries with different names. -/
def write? (entries : List Source) : Option Bytes :=
  if (entries.map Source.name).Nodup then
    let body := entries.flatMap Source.localPart
    let listing := directory 0 entries
    some (body ++ listing ++ endMark ++ little 2 0 ++ little 2 0 ++ little 2 entries.length
      ++ little 2 entries.length ++ little 4 listing.length ++ little 4 body.length ++ little 2 0)
  else none

end TiBench.Zip
