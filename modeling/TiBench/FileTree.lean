import TiBench.Text.Utf8

/-!
# File trees

Plain files and directories by their paths. A path as text is read from a working directory, name
by name: every name but the last must lead to a directory.
-/

namespace TiBench

/-- The names on the way from the root. -/
abbrev Path := List String

/-- Why a file cannot be read or written. -/
inductive FileError where
  | notFound
  | notDirectory
  | isDirectory
  | nameTooLong
  | permissionDenied
  | nulByte
deriving DecidableEq, Repr

/-- The wording of an error. -/
def FileError.message : FileError → String
  | .notFound => "No such file or directory (os error 2)"
  | .notDirectory => "Not a directory (os error 20)"
  | .isDirectory => "Is a directory (os error 21)"
  | .nameTooLong => "File name too long (os error 36)"
  | .permissionDenied => "Permission denied (os error 13)"
  | .nulByte => "file name contained an unexpected NUL byte"

/-- What a path leads to. -/
inductive Node where
  | file (data : Bytes)
  | directory
deriving DecidableEq

/-- Files and directories by their paths. The root is a directory without being listed. -/
structure FileTree where
  nodes : List (Path × Node)
deriving DecidableEq

namespace FileTree

/-- The tree with nothing but its root. -/
def empty : FileTree := ⟨[]⟩

/-- What a path leads to. -/
def get? (t : FileTree) (p : Path) : Option Node :=
  if p = [] then some .directory else (t.nodes.find? (·.1 == p)).map Prod.snd

/-- The tree without what a path leads to. -/
def erase (t : FileTree) (p : Path) : FileTree := ⟨t.nodes.filter (·.1 != p)⟩

/-- The tree in which a path leads to `n`. -/
def put (t : FileTree) (p : Path) (n : Node) : FileTree := ⟨(p, n) :: (t.erase p).nodes⟩

theorem get?_put_self (t : FileTree) {p : Path} (n : Node) (h : p ≠ []) :
    (t.put p n).get? p = some n := by
  simp [get?, put, h]

theorem get?_erase_of_ne (t : FileTree) {p q : Path} (h : q ≠ p) :
    (t.erase p).get? q = t.get? q := by
  unfold get? erase
  split
  · rfl
  · congr 1
    rw [List.find?_filter]
    congr 1
    funext x
    by_cases hx : x.1 = q
    · simp [hx, h]
    · simp [hx]

theorem get?_put_of_ne (t : FileTree) {p q : Path} (n : Node) (h : q ≠ p) :
    (t.put p n).get? q = t.get? q := by
  rw [← get?_erase_of_ne t h]
  have hb : (p == q) = false := by simpa using fun e : p = q => h e.symm
  unfold get? put
  split
  · rfl
  · rw [List.find?_cons_of_neg (by simp [hb])]

/-- The tree in which `p` and all paths on the way to it are directories. -/
def makeDirectories (t : FileTree) (p : Path) : FileTree :=
  (List.range' 1 p.length).foldl (fun t n => t.put (p.take n) .directory) t

/-- The names in a directory, in ascending order. -/
def namesIn (t : FileTree) (dir : Path) : List String :=
  let names := t.nodes.filterMap fun (p, _) => if p.dropLast = dir then p.getLast? else none
  names.mergeSort fun a b => a ≤ b

/-- The names in a path as text. -/
def names (text : String) : List String :=
  ((Pieces.splitOn (· == '/') text.toList).filter (fun n => !n.isEmpty)).map String.ofList

/-- The greatest number of bytes in a name. -/
def maxName : Nat := 255

/-- The greatest number of bytes in a path as text. -/
def maxText : Nat := 4095

/-- The path after one more name. -/
def step (p : Path) (name : String) : Path :=
  if name = "." then p else if name = ".." then p.dropLast else p ++ [name]

/-- Where a path as text starts: at the root, or in the working directory `cwd`. -/
def origin (cwd : Path) (text : String) : Path := if text.toList.head? = some '/' then [] else cwd

/-- The path that a text gives if all names on the way lead to directories. -/
def resolve (cwd : Path) (text : String) : Path := (names text).foldl step (origin cwd text)

/-- The tree with a file at a path that is text, and with the directories on the way. -/
def addFile (t : FileTree) (cwd : Path) (text : String) (data : Bytes) : FileTree :=
  let p := resolve cwd text
  (t.makeDirectories p.dropLast).put p (.file data)

/-- The path that names lead to from `p`. -/
def walk (t : FileTree) (p : Path) : List String → Except FileError Path
  | [] => .ok p
  | name :: rest =>
    match t.get? p with
    | none => .error .notFound
    | some (.file _) => .error .notDirectory
    | some .directory =>
      if maxName < (Text.utf8 name).length then .error .nameTooLong else walk t (step p name) rest

/-- The path that a text gives in the working directory `cwd`. -/
def locate (t : FileTree) (cwd : Path) (text : String) : Except FileError Path :=
  if text.isEmpty then .error .notFound
  else if text.toList.contains (Char.ofNat 0) then .error .nulByte
  else if maxText < text.utf8ByteSize then .error .nameTooLong
  else walk t (origin cwd text) (names text)

/-- Whether a path as text asks for a directory. -/
def asksDirectory (text : String) : Bool := text.toList.getLast? == some '/'

/-- The content of a file. -/
def read (t : FileTree) (cwd : Path) (text : String) : Except FileError Bytes := do
  match t.get? (← t.locate cwd text) with
  | none => .error .notFound
  | some .directory => .error .isDirectory
  | some (.file data) => if asksDirectory text then .error .notDirectory else .ok data

/-- The tree with a file written, which may be there already. -/
def write (t : FileTree) (cwd : Path) (text : String) (data : Bytes) :
    Except FileError FileTree := do
  let p ← t.locate cwd text
  match t.get? p with
  | some .directory => .error .isDirectory
  | some (.file _) =>
    if asksDirectory text then .error .notDirectory else .ok (t.put p (.file data))
  | none => if asksDirectory text then .error .isDirectory else .ok (t.put p (.file data))

/-- The tree without a file. -/
def remove (t : FileTree) (cwd : Path) (text : String) : Except FileError FileTree := do
  let p ← t.locate cwd text
  match t.get? p with
  | none => .error .notFound
  | some .directory => .error .isDirectory
  | some (.file _) => if asksDirectory text then .error .notDirectory else .ok (t.erase p)

/-- Whether a path as text leads anywhere. -/
def hasPath (t : FileTree) (cwd : Path) (text : String) : Bool :=
  match t.locate cwd text with
  | .error _ => false
  | .ok p =>
    match t.get? p with
    | none => false
    | some .directory => true
    | some (.file _) => !asksDirectory text

/-- The plain files in a directory, by name. -/
def filesIn (t : FileTree) (dir : Path) : List (String × Bytes) :=
  t.nodes.filterMap fun (p, n) =>
    match n with
    | .directory => none
    | .file data =>
      match p.getLast? with
      | some name => if p.dropLast = dir then some (name, data) else none
      | none => none

/-- A path as text. -/
def pathText (p : Path) : String := String.join (p.map fun name => "/" ++ name)

end FileTree

end TiBench
