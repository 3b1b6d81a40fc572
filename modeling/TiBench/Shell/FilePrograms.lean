import TiBench.Shell.Operands

/-!
# Programs for files

The programs that copy, move, make, remove and list files and directories.
-/

namespace TiBench.Shell

/-- The tree with all that another tree has at a path, at a path of its own. -/
def graft (files donor : FileTree) (source target : Path) : FileTree :=
  donor.nodes.reverse.foldl (fun t (path, n) =>
    if source.isPrefixOf path then t.put (target ++ path.drop source.length) n else t) files

/-- The tree without a part of it. -/
def removeTree (files : FileTree) (path : Path) : FileTree :=
  ⟨files.nodes.filter fun (p, _) => !path.isPrefixOf p⟩

/-- The path that a file gets: in a directory it keeps its name. -/
def targetPath (files : FileTree) (cwd : Path) (source target : String) : String :=
  match directory? files cwd target with
  | none => target
  | some _ =>
    (if FileTree.asksDirectory target then target else target ++ "/")
      ++ (FileTree.names source).getLast?.getD ""

/-- The files after one has been copied to a path. -/
def copyFile (isDeep : Bool) (g : Progress) (cwd : Path) (source path : String) :
    Except String Progress := do
  let place := (g.files.locate cwd source).toOption
  if place.isSome ∧ place = (g.files.locate cwd path).toOption ∧ g.files.hasPath cwd source then
    throw ("'" ++ source ++ "' and '" ++ path ++ "' are the same file")
  let input := if source = "-" then (g.files.read cwd source).map (·, g) else g.input cwd source
  match input, g.files.locate cwd source, g.files.locate cwd path with
  | .error .isDirectory, .ok start, .ok goal =>
    if isDeep then return { g with files := graft g.files g.files start goal }
    else throw ("-r not specified; omitting directory '" ++ source ++ "'")
  | .error .isDirectory, _, _ => throw ("-r not specified; omitting directory '" ++ source ++ "'")
  | .error e, _, _ => throw ("cannot stat '" ++ source ++ "': " ++ reason e)
  | .ok (data, g), _, _ =>
    if path = nullFile then return g
    if path = "/dev/stdout" then return { g with out := g.out ++ data }
    match g.files.write cwd path data with
    | .ok files => return { g with files := files }
    | .error e =>
      let e := if FileTree.asksDirectory path then .notDirectory else e
      throw ("cannot create regular file '" ++ path ++ "': " ++ reason e)

/-- The files after one has been moved to a path. -/
def moveFile (g : Progress) (cwd : Path) (source path : String) : Except String Progress := do
  let missing (e : FileError) := "cannot stat '" ++ source ++ "': " ++ reason e
  let start ← (g.files.locate cwd source).mapError missing
  if (g.files.get? start).isNone then throw (missing .notFound)
  let goal ← (g.files.locate cwd path).mapError fun e =>
    "cannot move '" ++ source ++ "' to '" ++ path ++ "': " ++ reason e
  if start = goal then throw ("'" ++ source ++ "' and '" ++ path ++ "' are the same file")
  return { g with files := graft (removeTree g.files start) g.files start goal }

/-- The program that brings files to a path, or to a directory. -/
def transfer (known : List Char) (one : List Char → Progress → Path → (source path : String) →
    Except String Progress) : Program :=
  withOptions known fun p files u =>
    match u.operands with
    | [] => misused p files "missing file operand"
    | [source] => misused p files ("missing destination file operand after '" ++ source ++ "'")
    | source :: more =>
      let target := more.getLast?.getD ""
      let isAlone := more.length = 1
      if !isAlone ∧ (directory? files p.cwd target).isNone then
        let e : FileError := if files.hasPath p.cwd target then .notDirectory else .notFound
        fails p files 1 ("target '" ++ target ++ "': " ++ reason e)
      else
        workThrough p files 1 (source :: more.dropLast) fun g source =>
          let path := targetPath g.files p.cwd source target
          match one u.letters g p.cwd source path with
          | .ok g =>
            if u.letters.contains 'v' then
              { g with out := g.out ++ Text.utf8 ("'" ++ source ++ "' -> '" ++ path ++ "'\n") }
            else g
          | .error text => g.fault text

/-- The program that copies files. -/
def copy : Program :=
  transfer ['f', 'p', 'a', 'r', 'R', 'd', 'L', 'P', 'u', 'v'] fun letters =>
    copyFile (letters.any ['a', 'r', 'R'].contains)

/-- The program that moves files. -/
def move : Program := transfer ['f', 'u', 'v'] fun _ => moveFile

/-- The program that removes files. -/
def removeFiles : Program := withOptions ['f', 'r', 'R', 'd', 'v'] fun p files u =>
  let isQuiet := u.letters.contains 'f'
  let isDeep := u.letters.any ['r', 'R'].contains
  if u.operands.isEmpty then
    if isQuiet then prints p files 0 [] [] else misused p files "missing operand"
  else
    workThrough p files 1 u.operands fun g path =>
      match g.files.remove p.cwd path, g.files.locate p.cwd path with
      | .ok files, _ => { g with files := files }
      | .error .isDirectory, .ok place =>
        if !isDeep then g.fault ("cannot remove '" ++ path ++ "': " ++ reason .isDirectory)
        else if (FileTree.names path).getLast?.any ([".", ".."].contains ·) then
          g.fault ("refusing to remove '.' or '..' directory: skipping '" ++ path ++ "'")
        else { g with files := removeTree g.files place }
      | .error e, _ =>
        if isQuiet ∧ e = .notFound then g
        else g.fault ("cannot remove '" ++ path ++ "': " ++ reason e)

/-- The program that removes empty directories. -/
def removeDirectories : Program := withOptions ['p', 'v'] fun p files u =>
  if u.operands.isEmpty then misused p files "missing operand"
  else
    workThrough p files 1 u.operands fun g path =>
      let failed (text : String) := g.fault ("failed to remove '" ++ path ++ "': " ++ text)
      match g.files.locate p.cwd path with
      | .error e => failed (reason e)
      | .ok place =>
        match g.files.get? place with
        | none => failed (reason .notFound)
        | some (.file _) => failed (reason .notDirectory)
        | some .directory =>
          if (g.files.namesIn place).isEmpty then { g with files := g.files.erase place }
          else failed "Directory not empty"

/-- The program that makes empty files where there are none. -/
def makeFiles : Program := withOptions ['a', 'c', 'm'] fun p files u =>
  if u.operands.isEmpty then misused p files "missing file operand"
  else
    workThrough p files 1 u.operands fun g path =>
      if g.files.hasPath p.cwd path ∨ u.letters.contains 'c' then g
      else g.change ((g.files.write p.cwd path []).mapError fun e =>
        "cannot touch '" ++ path ++ "': " ++ reason e)

/-- The program that makes directories. -/
def makeDirectories : Program := withOptions ['p', 'v'] fun p files u =>
  let withParents := u.letters.contains 'p'
  if u.operands.isEmpty then misused p files "missing operand"
  else
    workThrough p files 1 u.operands fun g path =>
      let failed (text : String) := g.fault ("cannot create directory '" ++ path ++ "': " ++ text)
      match g.files.locate p.cwd path with
      | .ok place =>
        match g.files.get? place with
        | none => { g with files := g.files.put place .directory }
        | some .directory => if withParents then g else failed "File exists"
        | some (.file _) => failed "File exists"
      | .error .notFound =>
        if withParents ∧ !path.isEmpty then
          { g with files := g.files.makeDirectories (FileTree.resolve p.cwd path) }
        else failed (reason .notFound)
      | .error e => failed (reason e)

/-- The program that lists files, and the files in directories. -/
def listNames : Program := withOptions ['1', 'a', 'A'] fun p files u =>
  let showsAll := u.letters.any ['a', 'A'].contains
  let lines (names : List String) : String := String.join (names.map (· ++ "\n"))
  let paths := if u.operands.isEmpty then ["."] else u.operands.mergeSort fun a b => a ≤ b
  let (found, missing) := paths.partition (files.hasPath p.cwd ·)
  let (directories, plain) := found.partition fun path => (directory? files p.cwd path).isSome
  let listed := directories.map fun path =>
    let names := (directory? files p.cwd path).elim [] files.namesIn
    let names := names.filter fun name => showsAll || name.toList.head? != some '.'
    let names := if u.letters.contains 'a' then "." :: ".." :: names else names
    (if paths.length = 1 then "" else path ++ ":\n") ++ lines names
  let parts := if plain.isEmpty then listed else lines plain :: listed
  let g : Progress := ⟨files, p.stdin, Text.utf8 ("\n".intercalate parts),
    missing.map fun path => "cannot access '" ++ path ++ "': " ++ reason .notFound⟩
  g.finish p 2

end TiBench.Shell
