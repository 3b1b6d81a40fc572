import TiBench.Json.Reader
import TiBench.Sample.ChunkPlan
import TiBench.Sample.Marker
import TiBench.Tool.Program

/-!
# Configuration

The settings of the test bench, in a JSON text: the tools, the sizes of memory images, and what
counts as a match or a fault. Every setting has a default. A number may be a string of decimal
digits, or of hexadecimal ones after `0x`.
-/

namespace TiBench

open TiBench.Sample (MarkerStyle)

/-- The sizes and addresses of memory images. -/
structure VectorSettings where
  capacity : Nat
  base : UInt16
  filler : UInt16
  randomRuns : Nat
  blockSize : Nat
deriving DecidableEq, Repr

/-- The sizes and addresses that need no setting. -/
def VectorSettings.usual : VectorSettings := ⟨0x2000, 0xa000, Sample.idleWord, 8, 2048⟩

/-- The settings of the test bench. -/
structure Config where
  tools : List ToolSpec
  vectors : VectorSettings
  /-- How much longer than the first image a reassembled one may be. -/
  lengthTolerance : Nat
  faults : List String
  markers : MarkerStyle
  /-- Source texts with markers, by their paths from the configuration. -/
  fixtures : List String
deriving DecidableEq, Repr

/-- Why a text is no configuration. -/
inductive ConfigError where
  | notJson
  | keyType (key : String)
  | missingProgram (tool : String)
deriving DecidableEq, Repr

/-- The wording of an error. -/
def ConfigError.message : ConfigError → String
  | .notJson => "configuration is not valid JSON"
  | .keyType key => "configuration key `" ++ key ++ "` has the wrong type"
  | .missingProgram tool => "tool `" ++ tool ++ "` has no program"

namespace Config

/-- The settings of an empty configuration. -/
def usual : Config where
  tools := []
  vectors := .usual
  lengthTolerance := 4
  faults := Tool.usualFaults
  markers := .usual
  fixtures := []

/-- The number that a JSON value stands for. -/
def natural? : Json.Value → Option Nat
  | .number n => n.natural?
  | .string s =>
    match s.toList with
    | '0' :: 'x' :: digits => Text.number? 16 Text.bound64 digits
    | digits => Text.number? 10 Text.bound64 digits
  | _ => none

/-- A field that holds a number. -/
def naturalField (v : Json.Value) (key : String) (default : Nat) : Except ConfigError Nat :=
  let field := v.field key
  if field.isNull then .ok default
  else match natural? field with
    | some n => .ok n
    | none => .error (.keyType key)

/-- A field that holds a word. -/
def wordField (v : Json.Value) (key : String) (default : UInt16) : Except ConfigError UInt16 := do
  let n ← naturalField v key default.toNat
  if n < Text.bound16 then return UInt16.ofNat n else .error (.keyType key)

/-- A field that holds a text. -/
def stringField (v : Json.Value) (key default : String) : Except ConfigError String :=
  let field := v.field key
  if field.isNull then .ok default
  else match field.string? with
    | some s => .ok s
    | none => .error (.keyType key)

/-- A field that holds a list of texts. -/
def stringsField (v : Json.Value) (key : String) (default : List String) :
    Except ConfigError (List String) :=
  let field := v.field key
  if field.isNull then .ok default
  else match field.items?.bind (·.mapM Json.Value.string?) with
    | some texts => .ok texts
    | none => .error (.keyType key)

/-- A tool with its name. -/
def toolSpec (name : String) (v : Json.Value) : Except ConfigError ToolSpec := do
  let program ← stringField v "program" ""
  if program.isEmpty then .error (.missingProgram name)
  else
    let args ← stringsField v "args" []
    return ⟨name, program, args, (v.field "defaults_var").string?⟩

/-- The sizes and addresses of memory images. -/
def vectorSettings (v : Json.Value) : Except ConfigError VectorSettings := do
  let usual := VectorSettings.usual
  let capacity ← naturalField v "capacity" usual.capacity
  let base ← wordField v "base" usual.base
  let filler ← wordField v "filler" usual.filler
  let randomRuns ← naturalField v "random_runs" usual.randomRuns
  let blockSize ← naturalField v "block_size" usual.blockSize
  return ⟨capacity, base, filler, randomRuns, blockSize⟩

/-- The comment sign and the tags of markers. -/
def markerStyle (v : Json.Value) : Except ConfigError MarkerStyle := do
  let usual := MarkerStyle.usual
  let comment ← stringField v "comment" usual.comment
  let errorTag ← stringField v "error_tag" usual.errorTag
  let warningTag ← stringField v "warning_tag" usual.warningTag
  return ⟨comment, errorTag, warningTag⟩

/-- The configuration in a JSON value. A value of another kind where an object could stand has no
settings. -/
def ofJson (v : Json.Value) : Except ConfigError Config := do
  let tools ← (v.field "tools").fields.mapM fun f => toolSpec f.1 f.2
  let vectors ← vectorSettings (v.field "vectors")
  let tolerance ← naturalField (v.field "compare") "length_tolerance" usual.lengthTolerance
  let faults ← stringsField v "faults" usual.faults
  let markers ← markerStyle (v.field "markers")
  let fixtures ← stringsField v "fixtures" usual.fixtures
  return ⟨tools, vectors, tolerance, faults, markers, fixtures⟩

/-- The configuration in a text. -/
def parse (text : String) : Except ConfigError Config :=
  match Json.parse? text with
  | some v => ofJson v
  | none => .error .notJson

/-- The tool with a name. -/
def tool? (c : Config) (name : String) : Option ToolSpec := c.tools.find? (·.name == name)

end Config

end TiBench
