/-!
# JSON values

Numbers keep how they were written: a number with a fraction or an exponent is an integer only if
the two cancel out.
-/

namespace TiBench.Json

/-- A decimal number: `mantissa` times ten to the power `exponent`. -/
structure Number where
  isNegative : Bool
  mantissa : Nat
  exponent : Int
deriving DecidableEq, Repr

/-- The value of a number without a sign whose exponent is zero as it was written. -/
def Number.natural? (n : Number) : Option Nat :=
  if n.isNegative ∨ n.exponent ≠ 0 then none else some n.mantissa

/-- A JSON value. The keys of an object differ. -/
inductive Value where
  | null
  | bool (b : Bool)
  | number (n : Number)
  | string (s : String)
  | array (items : List Value)
  | object (fields : List (String × Value))

namespace Value

/-- The field of an object, null where there is none. -/
def field (v : Value) (key : String) : Value :=
  match v with
  | object fields => ((fields.find? (·.1 == key)).map Prod.snd).getD null
  | _ => null

/-- The fields of an object. -/
def fields : Value → List (String × Value)
  | object fields => fields
  | _ => []

/-- The items of an array. -/
def items? : Value → Option (List Value)
  | array items => some items
  | _ => none

/-- The text of a string. -/
def string? : Value → Option String
  | string s => some s
  | _ => none

/-- Whether the value is null. -/
def isNull : Value → Bool
  | null => true
  | _ => false

/-- The fields of an object with one more. A key that is there already keeps its place and gets the
new value. -/
def put (key : String) (v : Value) : List (String × Value) → List (String × Value)
  | [] => [(key, v)]
  | (k, w) :: more => if k = key then (k, v) :: more else (k, w) :: put key v more

end Value

end TiBench.Json
