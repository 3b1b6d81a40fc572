import TiBench.Cli.Command
import TiBench.Cli.Error
import TiBench.Compare.Lines
import TiBench.Scenario.Suite

/-!
# Running commands

A command as a function of what it finds: files, a working directory, what there is to read, and the
time. A command that fails leaves the files as they were. One that changes a disk loads the whole
image, changes it, and writes it back.
-/

namespace TiBench.Cli

open TiBench.Volume (Disk)

/-- What a command finds. -/
structure World where
  files : FileTree
  cwd : Path
  stdin : Bytes
  now : Timestamp
  programs : Programs

/-- What a command leaves. -/
structure Result where
  stdout : Bytes
  stderr : Bytes
  files : FileTree
  error? : Option Error

namespace World

/-- The command printed something. -/
def printed (w : World) (stdout : Bytes) : Result := ⟨stdout, [], w.files, none⟩

/-- The command failed. -/
def failed (w : World) (e : Error) : Result := ⟨[], [], w.files, some e⟩

/-- The command left other files. -/
def left (w : World) (files : FileTree) : Result := { w.printed [] with files := files }

/-- What a command does that may fail. -/
def attempt (w : World) (r : Except Error Result) : Result :=
  match r with
  | .ok result => result
  | .error e => w.failed e

/-- The content of a file. -/
def read (w : World) (path : String) : Except Error Bytes :=
  (w.files.read w.cwd path).mapError .file

/-- The text in a file. -/
def readText (w : World) (path : String) : Except Error String := do
  match Text.ofUtf8? (← w.read path) with
  | some s => return String.ofList s
  | none => .error .notText

/-- The disk in a file. -/
def openDisk (w : World) (path : String) : Except Error Disk := do
  (Disk.ofBytes w.now (← w.read path)).mapError .volume

/-- A disk written to a file. -/
def save (w : World) (path : String) (d : Disk) : Except Error Result := do
  return w.left (← (w.files.write w.cwd path d.toBytes).mapError .file)

/-- The disk in a file changed and written back. -/
def change (w : World) (path : String) (f : Disk → Volume.Change) : Except Error Result := do
  let c := f (← w.openDisk path)
  match c.error? with
  | some e => .error (.volume e)
  | none => w.save path c.disk

end World

/-- The address that a text writes, in decimal, or in hexadecimal after `0x` or `0X`. -/
def parseAddress (text : String) : Except Error UInt16 :=
  let n? := match text.toList with
    | '0' :: 'x' :: digits | '0' :: 'X' :: digits => Text.number? 16 Text.bound16 digits
    | digits => Text.number? 10 Text.bound16 digits
  match n? with
  | some n => .ok (UInt16.ofNat n)
  | none => .error .outOfRange

/-- The address where an image loads. -/
def baseAddress : Option String → Except Error UInt16
  | some text => parseAddress text
  | none => .ok VectorSettings.usual.base

/-- The image of a chunk. -/
def chunkImage (index capacity : Nat) (base? : Option String) : Except Error Bytes := do
  let base ← baseAddress base?
  let plan ← (Sample.ChunkPlan.make capacity base Sample.idleWord).mapError .plan
  match plan.chunk? index with
  | some chunk => return chunk.image.data
  | none => .error .outOfRange

/-- A random image. -/
def blockImage (seed size : Nat) (base? : Option String) : Except Error Bytes := do
  let base ← baseAddress base?
  return (Sample.randomBlock (UInt64.ofNat seed) size base).data

namespace World

/-- Makes a blank disk in a new file. -/
def makeDisk (w : World) (path volume : String) (sectors sides density : Nat) :
    Except Error Result := do
  if w.files.hasPath w.cwd path then .error .invalidCommand
  else
    let d ← (Disk.init w.now volume sectors (UInt8.ofNat sides) (UInt8.ofNat density)).mapError
      .volume
    w.save path d

/-- Puts what there is to read, which must be something, into a file on a disk. -/
def put (w : World) (path file format : String) : Except Error Result := do
  let f ← (FileFormat.parse format).mapError fun _ => .unknownFormat
  if w.stdin.isEmpty then .error .invalidCommand
  else w.change path fun d => d.add file w.stdin f

/-- Compares two artifacts. -/
def compare (w : World) (reference result : String) (how : Comparison) : Except Error Result := do
  let a ← w.read reference
  let b ← w.read result
  match how with
  | .text width =>
    (Compare.compareText (.ofList (Text.ofUtf8Lossy a)) (.ofList (Text.ofUtf8Lossy b))
      (.leading width)).mapError .compare
  | .bytes mask? tolerance =>
    let mask ← match mask? with
      | some text => (Compare.Mask.parse text).mapError fun e => .compare (.badMask e.item)
      | none => .ok .empty
    (Compare.compareBytes a b mask tolerance).mapError .compare
  return { w.printed [] with stderr := Text.utf8 "artifacts match\n" }

/-- A configured tool as a step. Its configured arguments are the templates of the step. -/
def step (w : World) (c : Config) (name : String) : Except Error Step :=
  match c.tool? name with
  | some spec => .ok ⟨{ spec with args := [] : ToolSpec }.tool w.programs, spec.args, none⟩
  | none => .error (.missingTool name)

end World

/-- The directory part of a path as text. -/
def directoryText (path : String) : String :=
  let s := path.toList
  let name := (s.reverse.takeWhile (· != '/')).length
  String.ofList (s.take (s.length - name))

/-- The path of a file relative to the directory of another one. -/
def besides (path file : String) : String :=
  if file.toList.head? = some '/' then file else directoryText path ++ file

namespace World

/-- The scenario for a fixture. -/
def fixture (w : World) (c : Config) (config : String) (tool : Step) (path : String) :
    Except Error Scenario := do
  let source ← w.readText (besides config path)
  match (FileTree.names path).getLast? with
  | some name => return .errorPath (.ofSource path name source c.markers tool .inputError)
  | none => .error .invalidCommand

/-- The scenarios of a mode. -/
def scenarios (w : World) (c : Config) (config : String) (mode : RunMode) :
    Except Error (List Scenario) := do
  let inverse ← w.step c "asm"
  let v := c.vectors
  match mode with
  | .errors =>
    if c.fixtures.isEmpty then .error .invalidCommand
    else c.fixtures.mapM (w.fixture c config inverse)
  | .exhaustive =>
    let forward ← w.step c "disasm"
    let plan ← (Sample.ChunkPlan.make v.capacity v.base v.filler).mapError .plan
    return (RoundTrip.exhaustive plan forward inverse c.lengthTolerance).map .roundTrip
  | .random =>
    let forward ← w.step c "disasm"
    return (RoundTrip.random v.randomRuns v.blockSize v.base forward inverse c.lengthTolerance).map
      .roundTrip

/-- The configuration in a file. -/
def readConfig (w : World) (path : String) : Except Error Config := do
  (Config.parse (← w.readText path)).mapError .config

/-- The files that a command uses because its configuration names them. -/
def fixtureFiles (w : World) (c : Command) : List String :=
  match c with
  | .run config .errors =>
    match w.readConfig config with
    | .ok c => c.fixtures.map (besides config)
    | .error _ => []
  | _ => []

/-- Runs the scenarios of a mode and prints their outcomes. -/
def runScenarios (w : World) (config : String) (mode : RunMode) : Except Error Result := do
  let c ← w.readConfig config
  let outcomes := Scenario.runAll w.now c.faults (← w.scenarios c config mode)
  let (passed, failed) := Outcome.tally outcomes
  let text := String.join (outcomes.map fun o => o.text ++ "\n")
    ++ s!"{passed} passed, {failed} failed\n"
  return {
    w.printed (Text.utf8 text) with
    error? := if failed = 0 then none else some (.scenariosFailed failed) }

/-- What a command leaves. -/
def run (w : World) (c : Command) : Result :=
  w.attempt <| match c with
    | .chunk index capacity base => (chunkImage index capacity base).map w.printed
    | .block seed size base => (blockImage seed size base).map w.printed
    | .makeDisk disk volume sectors sides density => w.makeDisk disk volume sectors sides density
    | .catalog disk => do
      let text ← ((← w.openDisk disk).catalogText).mapError .volume
      return w.printed (Text.utf8 text)
    | .put disk file format => w.put disk file format
    | .get disk file => do
      return w.printed (← ((← w.openDisk disk).extract file).mapError .volume)
    | .delete disk file => w.change disk fun d => d.delete file
    | .rename disk file name => w.change disk fun d => d.rename file name
    | .protect disk file on => w.change disk fun d => d.protect file on
    | .compare reference result how => w.compare reference result how
    | .run config mode => w.runScenarios config mode
    | .completions _ => return w.printed []

/-- The text that tells the version. -/
def versionText : String := "ti99check 1.0.0\n"

/-- What the program leaves, and its exit code: 0 for success, 1 for a failure, 2 for arguments that
make no request. -/
def respond (w : World) (args : List String) : Nat × Result :=
  match Request.parse args with
  | .error .help => (0, w.printed [])
  | .error .usage => (2, w.printed [])
  | .ok .version => (0, w.printed (Text.utf8 versionText))
  | .ok .nothing => (1, w.failed .invalidCommand)
  | .ok (.command c) =>
    let r := w.run c
    (if r.error?.isNone then 0 else 1, r)

end World

end TiBench.Cli
