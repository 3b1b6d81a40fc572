import TiBench.Timestamp

/-!
# Catalogs

The listing of a volume in columns. What a row shows before its timestamp does not depend on when
the file was written.
-/

namespace TiBench.Volume

/-- A file as a catalog shows it. -/
structure CatalogRow where
  name : String
  /-- The sectors of the file, its descriptor record included. -/
  sectors : Nat
  format : String
  /-- The bytes of its data sectors. -/
  bytes : Nat
  records : Nat
  isProtected : Bool
  updated : Option Timestamp
deriving DecidableEq, Repr

/-- A row in columns. -/
def CatalogRow.text (row : CatalogRow) : String :=
  Text.padRight 10 row.name ++ " " ++ Text.padLeft 4 (toString row.sectors) ++ "  "
    ++ Text.padRight 12 row.format ++ " " ++ Text.padLeft 7 (toString row.bytes) ++ " B "
    ++ Text.padLeft 5 (toString row.records) ++ " recs"
    ++ (if row.isProtected then " P" else "")
    ++ (row.updated.map fun t => "  " ++ t.text).getD ""

/-- A line for the volume, a row for each file, and the counts of used and free sectors. -/
def catalog (volume : String) (rows : List CatalogRow) (used free : Nat) : String :=
  Text.padRight 10 volume ++ " (TI disk)\n"
    ++ String.join (rows.map fun row => row.text ++ "\n")
    ++ Text.padLeft 5 (toString used) ++ " used " ++ Text.padLeft 5 (toString free) ++ " free\n"

end TiBench.Volume
