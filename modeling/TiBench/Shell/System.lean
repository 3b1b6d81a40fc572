import TiBench.Shell.Run

/-!
# The system

Where programs are found: by a path, or by a name in the directories of the search path.

The modules of `Shell` stand in for the programs of a system, so that tools can be started where
there is none. They are no part of the theory: what starts tools takes its `Programs` or `Tool` as a
parameter, the theorems hold of any, and nothing is claimed of the programs here.
-/

namespace TiBench.Shell

/-- The directories with the programs. -/
def programDirectories : List Path := [["bin"], ["usr", "bin"]]

/-- Other places of every system, in which there is nothing that can be started. -/
def otherPlaces : List Path := [
  [], ["bin"], ["boot"], ["dev"], ["etc"], ["home"], ["lib"], ["media"], ["mnt"], ["opt"], ["proc"],
  ["root"], ["run"], ["sbin"], ["srv"], ["sys"], ["tmp"], ["usr"], ["var"], ["usr", "bin"],
  ["usr", "lib"], ["usr", "local"], ["usr", "local", "bin"], ["usr", "sbin"], ["dev", "null"],
  ["etc", "hosts"], ["etc", "passwd"]]

section

variable (named : String → Option Program)

/-- The program at a path. -/
def atPath? (path : Path) : Option Program :=
  if programDirectories.contains path.dropLast then path.getLast?.bind named else none

/-- The program at a path that is text, or why there is none. -/
def byPath (files : FileTree) (cwd : Path) (text : String) : Except FileError Program :=
  let path := FileTree.resolve cwd text
  match atPath? named path with
  | some program => if FileTree.asksDirectory text then .error .notDirectory else .ok program
  | none =>
    if (List.range path.length).any fun n => (atPath? named (path.take n)).isSome then
      .error .notDirectory
    else if otherPlaces.contains path then .error .permissionDenied
    else match files.locate cwd text with
      | .error e => .error e
      | .ok place =>
        match files.get? place with
        | none => .error .notFound
        | some .directory => .error .permissionDenied
        | some (.file _) =>
          .error (if FileTree.asksDirectory text then .notDirectory else .permissionDenied)

/-- The program with a name, which is looked for in directories. -/
def byName (directories : List Path) (name : String) : Except FileError Program :=
  if FileTree.maxName < name.utf8ByteSize then .error .nameTooLong
  else if name = "." ∨ name = ".." then .error .permissionDenied
  else match (directories.filter programDirectories.contains).findSome? fun _ => named name with
    | some program => .ok program
    | none => .error .notFound

/-- Programs found by a path, or by a name in the directories of the search path. -/
def inDirectories : Programs := fun p files =>
  if p.name.isEmpty then .error .notFound
  else if p.name.toList.contains '/' then byPath named files p.cwd p.name
  else
    let directories := p.searchPath?.elim programDirectories fun texts =>
      (Pieces.splitOn (· == ':') texts.toList).map fun text =>
        FileTree.resolve p.cwd (String.ofList text)
    byName named directories p.name

end

/-- The standard programs and the shell, in which shells run within shells to a depth. -/
def namedProgram : (depth : Nat) → String → Option Program
  | 0, name => standard name
  | depth + 1, name =>
    if name ∈ ["sh", "dash"] then some (shell (inDirectories (namedProgram depth)))
    else standard name

/-- The programs of the system. -/
def system : Programs := inDirectories (namedProgram 8)

end TiBench.Shell
