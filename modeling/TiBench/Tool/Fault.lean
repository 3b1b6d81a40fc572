import TiBench.Text.Line

/-!
# Faults

A line of an error stream that shows a raw fault of the tool, and no diagnostic.
-/

namespace TiBench.Tool

/-- Texts that show a fault. -/
def usualFaults : List String :=
  ["Traceback (most recent call last)", "panicked at", "Segmentation fault", "Internal error"]

/-- Whether a text holds another one. -/
def holds (part : List Char) (s : List Char) : Bool :=
  match s with
  | [] => part.isEmpty
  | _ :: rest => part.isPrefixOf s || holds part rest

/-- The first line that holds one of the texts. -/
def scanFaults (stderr : List Char) (faults : List String) : Option (List Char) :=
  (Text.lines stderr).find? fun line => faults.any fun fault => holds fault.toList line

end TiBench.Tool
