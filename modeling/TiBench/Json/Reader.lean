import TiBench.Json.Token

/-!
# Reading JSON

A JSON text is read token by token. The arrays and objects that are open stand on a stack, the
innermost first; only so many may be open at a time.
-/

namespace TiBench.Json

/-- An array or an object part way through. -/
inductive Frame where
  /-- The items read, in reverse. -/
  | array (items : List Value)
  /-- The fields read. -/
  | object (fields : List (String × Value))
  /-- The fields read, and the key of the next one. -/
  | field (fields : List (String × Value)) (key : String)

/-- What may come next. -/
inductive Expected where
  | value
  /-- The first item of an array, or its end. -/
  | firstItem
  /-- The first key of an object, or its end. -/
  | firstKey
  | key
  | colon
  /-- A comma or an end, after a value. -/
  | rest (v : Value)

/-- Where reading stands. -/
structure Reading where
  stack : List Frame
  expected : Expected

/-- The arrays and objects with something in them that may be open at a time. -/
def maxDepth : Nat := 512

namespace Reading

/-- Nothing has been read. -/
def start : Reading := ⟨[], .value⟩

/-- One more array or object is open. -/
def enter? (stack : List Frame) (f : Frame) (e : Expected) : Option Reading :=
  if stack.length < maxDepth then some ⟨f :: stack, e⟩ else none

/-- After a token where a value is expected. -/
def stepValue? (stack : List Frame) : Token → Option Reading
  | .openArray => some ⟨stack, .firstItem⟩
  | .openObject => some ⟨stack, .firstKey⟩
  | .string s => some ⟨stack, .rest (.string s)⟩
  | .scalar v => some ⟨stack, .rest v⟩
  | _ => none

/-- After a token that follows a value. -/
def stepRest? (v : Value) : List Frame → Token → Option Reading
  | .array items :: stack, .comma => some ⟨.array (v :: items) :: stack, .value⟩
  | .array items :: stack, .closeArray => some ⟨stack, .rest (.array (v :: items).reverse)⟩
  | .field fields key :: stack, .comma => some ⟨.object (Value.put key v fields) :: stack, .key⟩
  | .field fields key :: stack, .closeObject =>
    some ⟨stack, .rest (.object (Value.put key v fields))⟩
  | _, _ => none

/-- After one more token. -/
def step? (r : Reading) (t : Token) : Option Reading :=
  match r.expected, r.stack, t with
  | .value, stack, t => stepValue? stack t
  | .firstItem, stack, .closeArray => some ⟨stack, .rest (.array [])⟩
  | .firstItem, stack, t => do
    let r ← enter? stack (.array []) .value
    stepValue? r.stack t
  | .firstKey, stack, .closeObject => some ⟨stack, .rest (.object [])⟩
  | .firstKey, stack, .string key => enter? stack (.field [] key) .colon
  | .key, .object fields :: stack, .string key => some ⟨.field fields key :: stack, .colon⟩
  | .colon, stack, .colon => some ⟨stack, .value⟩
  | .rest v, stack, t => stepRest? v stack t
  | _, _, _ => none

/-- The value read, if nothing is missing. -/
def value? (r : Reading) : Option Value :=
  match r.expected, r.stack with
  | .rest v, [] => some v
  | _, _ => none

end Reading

/-- The value that a JSON text writes. -/
def parse? (s : String) : Option Value := do
  let r ← (← Token.scan? s.toList).foldlM Reading.step? Reading.start
  r.value?

end TiBench.Json
