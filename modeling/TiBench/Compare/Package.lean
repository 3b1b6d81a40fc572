import TiBench.Compare.Binary
import TiBench.Zip.Archive

/-!
# Comparing packages

A package is an archive with one main entry. Two packages match if the contents of their main
entries are equal; other entries need only be listed.
-/

namespace TiBench.Compare

/-- The content of an entry. -/
def entryContent (archive : Zip.Archive) (name : String) : Except CompareError Bytes :=
  match archive.find? name with
  | none => .error (.missingEntry name)
  | some e => (archive.content e).mapError fun
    | .noHeader | .unsupported => .badArchive
    | .damaged => .badEntry

/-- The archive of a package. -/
def openPackage (package : Bytes) : Except CompareError Zip.Archive :=
  match Zip.Archive.read? package with
  | some archive => .ok archive
  | none => .error .badArchive

/-- Succeeds if both archives hold every required name and equal main entries. -/
def compareArchives (expected actual : Zip.Archive) (required : List String) (main : String) :
    Except CompareError Unit := do
  match required.find? fun name =>
      ((expected.find? name).isNone || (actual.find? name).isNone) with
  | some name => .error (.missingEntry name)
  | none =>
    let a ← entryContent expected main
    let b ← entryContent actual main
    (compareBytes a b .empty 0).mapError fun e => .entryMismatch main e.message

/-- Succeeds if two packages match. -/
def comparePackages (expected actual : Bytes) (required : List String) (main : String) :
    Except CompareError Unit := do
  let a ← openPackage expected
  let b ← openPackage actual
  compareArchives a b required main

end TiBench.Compare
