import TiBench.Sample.Marker
import TiBench.Sample.MemoryImage
import TiBench.Text.Utf8

/-!
# Test vectors

A payload together with what a tool must say about it.
-/

namespace TiBench.Sample

/-- What is fed to a tool. -/
structure TestVector where
  name : String
  payload : Bytes
  /-- The address where a memory image loads, zero for a source text. -/
  base : UInt16
  /-- The problems that the tool must report. -/
  expected : List Marker
deriving DecidableEq

namespace TestVector

/-- A memory image, about which a tool has nothing to say. -/
def ofImage (name : String) (img : MemoryImage) : TestVector := ⟨name, img.data, img.base, []⟩

/-- A source text with markers in its comments. -/
def ofSource (name source : String) (style : MarkerStyle) : TestVector :=
  ⟨name, Text.utf8 source, 0, Marker.ofSource style source⟩

end TestVector

end TiBench.Sample
