import TiBench.Shell.Pattern
import TiBench.Shell.Session

/-!
# Expansion

What words stand for when a command runs: parameters, output and arithmetic are replaced by values,
values outside of quotes are split into fields, and patterns among the fields are replaced by the
names of files.
-/

namespace TiBench.Shell

/-- An expansion. Where it fails, the script has ended. -/
abbrev Expansion := ExceptT Unit Act

/-- Fields while they are put together. -/
structure Fields where
  /-- The fields before the last one, in reverse. -/
  done : List MarkedText
  /-- The last field, if it has begun. -/
  open? : Option MarkedText
  /-- A blank has ended the field before, so that a separator after it separates nothing more. -/
  afterBlank : Bool

namespace Fields

/-- Before anything is put into fields. -/
def none : Fields := ⟨[], .none, false⟩

/-- Text joined to the last field. -/
def join (f : Fields) (t : MarkedText) : Fields := ⟨f.done, some (f.open?.getD [] ++ t), false⟩

/-- The last field ended. -/
def close (f : Fields) : Fields := ⟨f.open?.toList ++ f.done, .none, f.afterBlank⟩

/-- All fields. -/
def toList (f : Fields) : List MarkedText := f.close.done.reverse

/-- After one more character, which may separate fields if it is not quoted. -/
def push (separators : List Char) (f : Fields) (c : Char × Bool) : Fields :=
  if c.2 ∨ !separators.contains c.1 then f.join [c]
  else if c.1 ∈ [' ', '\t', '\n'] then
    if f.open?.isSome then { f.close with afterBlank := true } else f
  else if f.open?.isSome then f.close
  else if f.afterBlank then { f with afterBlank := false }
  else ⟨[] :: f.done, .none, false⟩

/-- Text split into fields. -/
def split (separators : List Char) (f : Fields) (t : MarkedText) : Fields :=
  t.foldl (push separators) f

/-- Values as fields of their own, the first joined to the last field. -/
def joinAll (f : Fields) : List MarkedText → Fields
  | [] => f
  | [t] => f.join t
  | t :: more => ((f.join t).close).joinAll more

/-- Values each of which is split into fields of its own, the first joined to the last field. -/
def splitAll (separators : List Char) (f : Fields) : List MarkedText → Fields
  | [] => f
  | t :: more => more.foldl (fun f t => f.close.split separators t) (f.split separators t)

/-- A value: as it is in quotes, split otherwise. -/
def value (separators : List Char) (f : Fields) (isQuoted : Bool) (t : MarkedText) : Fields :=
  if isQuoted then f.join (marked true t.plain) else f.split separators t

end Fields

/-- Several values as one text, with the first separator between them. -/
def joined (separators : List Char) (values : List String) : List Char :=
  let between := match separators with
    | c :: _ => [c]
    | [] => []
  between.intercalate (values.map String.toList)

/-- The paths that a pattern stands for, whose parts between slashes are `ps`, after `start`. -/
def globFrom (files : FileTree) (cwd : Path) :
    (start : String) → (ps : List MarkedText) → List String
  | start, [] => [start]
  | start, p :: more =>
    let pattern := Pattern.ofText p
    let names :=
      if pattern.isOpen then
        match files.locate cwd (if start.isEmpty then "." else start) with
        | .ok dir => (files.namesIn dir).filter fun name =>
          (name.toList.head? != some '.' || p.head?.any (·.1 == '.')) && pattern.holds name.toList
        | .error _ => []
      else [String.ofList p.plain]
    names.flatMap fun name =>
      let path := start ++ name
      if !files.hasPath cwd path ∧ !path.isEmpty then []
      else globFrom files cwd (if more.isEmpty then path else path ++ "/") more

/-- The fields that a field with a pattern in it stands for: the paths of files, or itself. -/
def glob (files : FileTree) (cwd : Path) (t : MarkedText) : List String :=
  let self := String.ofList t.plain
  if (Pattern.ofText t).isOpen then
    match globFrom files cwd "" (Pieces.splitOn (·.1 == '/') t) with
    | [] => [self]
    | paths => paths
  else [self]

section

variable (ctx : Context) (outputOf : List Char → Act Bytes)

/-- The expansion fails, and with it the script. -/
def Expansion.fail {α : Type} (text : String) : Expansion α := do
  abort ctx text
  throw ()

/-- A variable gets a value. -/
def setVariable (name value : String) : Expansion Unit := do
  if (← get).isReadOnly name then Expansion.fail ctx (readOnlyText name)
  modify (·.setVariable name value)

/-- The value of an arithmetic expression, which may set variables. -/
def evaluate (e : List Char) : Expansion MarkedText := do
  let s ← get
  let value (name : List Char) : Except Arithmetic.Failure Int :=
    Arithmetic.numberOf ((s.value? (String.ofList name)).getD "").toList
  match (Arithmetic.Formula.parse e).bind (·.eval value []) with
  | .ok (n, settings) =>
    for (name, n) in settings.reverse do
      setVariable ctx (String.ofList name) (toString n)
    return marked false (toString n).toList
  | .error f => Expansion.fail ctx (f.message e)

mutual

/-- Fields after a word. Where nothing `splits`, there is one field. Nested scripts run by
`outputOf`. -/
def putWord (splits : Bool) : (fuel : Nat) → Fields → Word → Expansion Fields
  | 0, f, _ => return f
  | fuel + 1, f, w => w.foldlM (putPiece splits fuel) f

/-- Fields after a piece of a word. -/
def putPiece (splits : Bool) : (fuel : Nat) → Fields → Piece → Expansion Fields
  | 0, f, _ => return f
  | fuel + 1, f, piece => do
    match piece with
    | .text s isQuoted => return f.join (marked isQuoted s)
    | .parameter name change? isQuoted => putParameter splits fuel f name change? isQuoted
    | .output script isQuoted =>
      let text := Pieces.dropEndWhile (· == '\n') (Text.ofUtf8Lossy (← outputOf script))
      return f.value ((← get).separatorsIf splits) isQuoted (marked false text)
    | .arithmetic e isQuoted =>
      let value ← evaluate ctx (← textOf fuel e).plain
      return f.value ((← get).separatorsIf splits) isQuoted value

/-- Fields after the value of a parameter. -/
def putParameter (splits : Bool) : (fuel : Nat) → Fields → (name : List Char) →
    Option (Change × Word) → (isQuoted : Bool) → Expansion Fields
  | 0, f, _, _, _ => return f
  | fuel + 1, f, name, change?, isQuoted => do
    let s ← get
    let separators := s.separatorsIf splits
    let shown := String.ofList name
    let values? := s.parameterValues? ctx name
    let values := (values?.getD []).map fun v => marked isQuoted v.toList
    let text := joined s.separators (values?.getD [])
    let put (t : MarkedText) : Fields := f.value separators isQuoted t
    let needed : Expansion Unit := do
      if values?.isNone ∧ s.options.contains 'u' then
        Expansion.fail ctx (shown ++ ": parameter not set")
    let plain : Expansion Fields := do
      needed
      if splits ∧ isQuoted ∧ name = ['@'] then return f.joinAll values
      if splits ∧ !isQuoted ∧ name ∈ [['@'], ['*']] then return f.splitAll separators values
      return put (marked false text)
    let lacks (ifEmpty : Bool) : Bool := values?.isNone || (ifEmpty && text.isEmpty)
    match change? with
    | none => plain
    | some (change, w) =>
      match change with
      | .otherwise ifEmpty => if lacks ifEmpty then return put (← textOf fuel w) else plain
      | .assign ifEmpty =>
        if lacks ifEmpty then
          let t ← textOf fuel w
          setVariable ctx shown (String.ofList t.plain)
          return put t
        else plain
      | .fail ifEmpty =>
        if lacks ifEmpty then
          let t ← textOf fuel w
          let usual := if ifEmpty then "parameter not set or null" else "parameter not set"
          Expansion.fail ctx (shown ++ ": " ++ if w.isEmpty then usual else String.ofList t.plain)
        else plain
      | .instead ifEmpty => if lacks ifEmpty then return f else return put (← textOf fuel w)
      | .length =>
        needed
        return put (marked false (toString text.length).toList)
      | .dropStart longest =>
        needed
        let p := Pattern.ofText (← textOf fuel w)
        return put (marked false (p.dropStart longest text))
      | .dropEnd longest =>
        needed
        let p := Pattern.ofText (← textOf fuel w)
        return put (marked false (p.dropEnd longest text))
      | .unknown => Expansion.fail ctx "Bad substitution"

/-- The text that a word stands for where nothing splits it. -/
def textOf : (fuel : Nat) → Word → Expansion MarkedText
  | 0, _ => return []
  | fuel + 1, w => do return (← putWord false fuel Fields.none w).toList.flatten

end

/-- The greatest depth of words within words. -/
def wordDepth : Nat := 100

/-- The fields that words give. -/
def fieldsOf (ws : List Word) : Expansion (List String) := do
  let fields ← ws.mapM fun w => do
    let f ← putWord ctx outputOf true wordDepth Fields.none w
    return f.toList
  let s ← get
  return fields.flatten.flatMap (glob s.files s.cwd)

/-- The text that a word gives. -/
def plainOf (w : Word) : Expansion String := do
  return String.ofList (← textOf ctx outputOf wordDepth w).plain

end

end TiBench.Shell
