import TiBench.Text.Blank
import TiBench.Text.Utf8

/-!
# Names of volumes and files

A name is one to ten printable ASCII characters without a full stop, stored with spaces after it.
-/

namespace TiBench.Volume

/-- The bytes of a stored name. -/
def nameSize : Nat := 10

/-- A byte that may stand in a name: printable ASCII, but no space and no full stop. -/
def isNameByte (b : UInt8) : Bool := 0x20 < b && b < 0x7f && b != 0x2e

/-- The stored form of a name, if it is one. -/
def packName (name : String) : Option (Block nameSize) :=
  let bytes := Text.utf8 name
  if bytes.isEmpty ∨ nameSize < bytes.length ∨ ¬bytes.all isNameByte then none
  else some (Block.fit 0x20 nameSize bytes)

/-- The name that a stored form shows, whatever its bytes are. -/
def unpackName (stored : Bytes) : String := String.ofList (Text.trimEnd (Text.ofUtf8Lossy stored))

end TiBench.Volume
