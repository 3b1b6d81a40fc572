import TiBench.FileFormat
import TiBench.Record.Basic
import TiBench.SectorImage

/-!
# What can go wrong on a volume

One type for every reason that reading or changing a volume gives, and its wording.
-/

namespace TiBench.Volume

/-- What is wrong with the structure of a volume. -/
inductive Damage where
  /-- The index lists a sector past the end of the volume. -/
  | pointer (sector : Nat)
  /-- The descriptor of a file gives no format. -/
  | format (file : String)
  /-- A file has data past the end of the volume. -/
  | data (file : String)
deriving DecidableEq, Repr

/-- The wording of a kind of damage. -/
def Damage.message : Damage → String
  | .pointer sector => s!"FDI pointer {sector}"
  | .format file => "format of `" ++ file ++ "`"
  | .data file => "`" ++ file ++ "` points past end of volume"

/-- Why a volume cannot be made, read or changed. -/
inductive VolumeError where
  | diskFull
  | nameConflict (name : String)
  | fileNotFound (name : String)
  | badName (name : String)
  | directoryFull
  | fileProtected (name : String)
  | damaged (damage : Damage)
  | geometry
  /-- The number, counted from one, of a line that ends in a space. -/
  | paddedLine (line : Nat)
  /-- The image is no formatted volume. -/
  | notFormatted
  | record (error : RecordError)
  | image (error : ImageError)
deriving DecidableEq, Repr

/-- The wording of an error. -/
def VolumeError.message : VolumeError → String
  | .diskFull => "disk full"
  | .nameConflict name => "file `" ++ name ++ "` already exists"
  | .fileNotFound name => "file `" ++ name ++ "` not found"
  | .badName name => "bad file name `" ++ name ++ "`"
  | .directoryFull => "directory full"
  | .fileProtected name => "file `" ++ name ++ "` is protected"
  | .damaged damage => "disk structure damaged: " ++ damage.message
  | .geometry => "volume geometry not supported"
  | .paddedLine line =>
    s!"line {line} ends in a space, which fixed display records treat as padding"
  | .notFormatted => "file image format is wrong"
  | .record error => error.message
  | .image error => error.message

end TiBench.Volume
