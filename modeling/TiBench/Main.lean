import Std.Time.Zoned
import TiBench.Cli.Run
import TiBench.Shell.System

/-!
# The program

Reads the files that a command uses, runs the command on them, writes back what it changed, and
prints what it says. Tools find the programs of `Shell`, which this module alone imports.
-/

namespace TiBench.Cli

/-- The time on the clock of the system. -/
def localTime : IO Timestamp := do
  let t ← Std.Time.PlainDateTime.now
  return ⟨t.date.year.toInt, t.date.month.val.toNat, t.date.day.val.toNat, t.time.hour.val.toNat,
    t.time.minute.val.toNat, t.time.second.val.toNat⟩

/-- The tree with a file of the system, and with the directories on the way to it. A file that
cannot be read is not there. -/
def load (cwd : Path) (files : FileTree) (path : String) : IO FileTree := do
  match ← (IO.FS.readBinFile path).toBaseIO with
  | .ok data => return files.addFile cwd path data.toList
  | .error _ => return files.makeDirectories (FileTree.resolve cwd path).dropLast

/-- Writes a file to the system if a command changed it. -/
def store (cwd : Path) (before after : FileTree) (path : String) : IO Unit := do
  if let .ok data := after.read cwd path then
    if (before.read cwd path).toOption ≠ some data then
      IO.FS.writeBinFile path ⟨data.toArray⟩

/-- What there is to read, if the arguments ask for a command that takes it. -/
def input (request : Except Refusal Request) : IO Bytes := do
  match request with
  | .ok (.command c) =>
    if c.readsInput then return (← (← IO.getStdin).readBinToEnd).toList else return []
  | _ => return []

/-- What the program finds, and the files of the system that it may use. -/
def world (request : Except Refusal Request) : IO (World × List String) := do
  let cwd := FileTree.names (← IO.currentDir).toString
  let stdin ← input request
  let now ← localTime
  let w : World := ⟨FileTree.empty.makeDirectories cwd, cwd, stdin, now, Shell.system⟩
  match request with
  | .ok (.command c) =>
    let w := { w with files := ← c.files.foldlM (load cwd) w.files }
    let more := w.fixtureFiles c
    return ({ w with files := ← more.foldlM (load cwd) w.files }, c.files)
  | _ => return (w, [])

end TiBench.Cli

open TiBench Cli in
/-- Runs the program and gives its exit code. -/
def main (args : List String) : IO UInt32 := do
  let (w, paths) ← world (Request.parse args)
  let (code, r) := w.respond args
  (← IO.getStdout).write ⟨r.stdout.toArray⟩
  (← IO.getStderr).write ⟨r.stderr.toArray⟩
  paths.forM (store w.cwd w.files r.files)
  match r.error? with
  | some e => IO.eprintln ("error: " ++ e.message)
  | none => if code = 2 then IO.eprintln "error: these arguments make no command"
  return UInt32.ofNat code
