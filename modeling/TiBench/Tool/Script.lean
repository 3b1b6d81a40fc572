import TiBench.Tool.Basic
import TiBench.Volume.Disk.Write

/-!
# Scripted tools

A tool that carries out a list of actions in order, and ends with success unless an action ends it.
It stands for a real tool, or for one with a flaw. A crash is reported the way a crashing program
reports it.
-/

namespace TiBench.Script

/-- One of the two streams of output. -/
inductive Stream where
  | out
  | err
deriving DecidableEq, Repr

/-- What is done to bytes on their way: each byte is combined with a mask, some are dropped at the
end, others are added there, and some are overwritten. -/
structure Edit where
  mask : UInt8
  drop : Nat
  suffix : Bytes
  poke? : Option (Nat × Bytes)

/-- A text: an argument of the call, or one that is given. -/
inductive Source where
  | arg (index : Nat)
  | text (s : String)

/-- An action. Files are given by the indices of arguments that hold their paths. -/
inductive Action where
  | write (target : Stream) (data : Bytes)
  /-- Shows the arguments, without the working directory in them. -/
  | args (target : Stream)
  /-- Shows what there is to read. -/
  | stdin
  /-- Copies a file with an edit, to another file or to the output. -/
  | copy (file : Nat) (target : Option Nat) (edit : Edit)
  | put (target : Nat) (data : Bytes)
  | remove (file : Nat)
  /-- Takes a file from a disk, to a file or to the output. -/
  | extract (disk : Nat) (name : Source) (target : Option Nat)
  /-- Adds a file to a disk. -/
  | add (disk : Nat) (name : Source) (file : Nat) (format : Source) (clock : Timestamp)
  /-- Carries out more actions if an argument is there. -/
  | whenArg (arg : String) (body : List Action)
  | crash (message : String)
  | exit (code : Int)

/-- What a call has done so far. -/
structure Session where
  stdout : Bytes
  stderr : Bytes
  files : FileTree

/-- Where a call stands: it goes on, or it has ended with a code. -/
structure Progress where
  session : Session
  code? : Option Int

namespace Session

/-- The call goes on. -/
def on (s : Session) : Progress := ⟨s, none⟩

/-- The call ends with a code. -/
def ended (s : Session) (code : Int) : Progress := ⟨s, some code⟩

/-- Bytes written to a stream. -/
def write (s : Session) (target : Stream) (data : Bytes) : Session :=
  match target with
  | .out => { s with stdout := s.stdout ++ data }
  | .err => { s with stderr := s.stderr ++ data }

/-- A text written to the error stream. -/
def complain (s : Session) (text : String) : Session := s.write .err (Text.utf8 text)

end Session

/-- Bytes with another run of bytes in place of those from `offset` on. -/
def overwrite (offset : Nat) (new data : Bytes) : Bytes :=
  data.take offset ++ new ++ data.drop (offset + new.length)

/-- The edited bytes. -/
def Edit.apply (e : Edit) (data : Bytes) : Bytes :=
  let data := data.map (· ^^^ e.mask)
  let data := data.take (data.length - e.drop) ++ e.suffix
  match e.poke? with
  | some (offset, new) => overwrite offset new data
  | none => data

section

variable (inv : Invocation)

/-- An argument, empty if there is none with that index. -/
def argument (index : Nat) : String := (inv.effectiveArgs)[index]?.getD ""

/-- The text that a source gives. -/
def Source.get : Source → String
  | .arg index => argument inv index
  | .text s => s

/-- Bytes written to the file that an argument names, or to the output. -/
def deliver (s : Session) (target : Option Nat) (data : Bytes) : Progress :=
  match target with
  | none => (s.write .out data).on
  | some index =>
    match s.files.write inv.cwd (argument inv index) data with
    | .ok files => { s with files := files : Session }.on
    | .error _ => s.ended 1

/-- The arguments in one line, without the working directory. -/
def shownArgs : String :=
  let here := (FileTree.pathText inv.cwd).toList.drop 1 ++ ['/']
  let shown (a : String) : String := String.ofList (Pieces.replaceAll '/' here [] a.toList)
  "|".intercalate (inv.effectiveArgs.map shown) ++ "\n"

/-- The file that a disk in a file holds, or the wording of what is wrong. -/
def extracted (s : Session) (disk : Nat) (name : String) : Except String Bytes := do
  let image ← (s.files.read inv.cwd (argument inv disk)).mapError FileError.message
  let d ← (Volume.Disk.ofBytes Timestamp.usual image).mapError Volume.VolumeError.message
  (d.extract name).mapError Volume.VolumeError.message

/-- The disk of a file with one more file, or the wording of what is wrong. -/
def added (s : Session) (disk : Nat) (name : String) (file : Nat) (format : String)
    (clock : Timestamp) : Except String Bytes := do
  let image ← (s.files.read inv.cwd (argument inv disk)).mapError FileError.message
  let d ← (Volume.Disk.ofBytes clock image).mapError Volume.VolumeError.message
  let data ← (s.files.read inv.cwd (argument inv file)).mapError FileError.message
  let f ← (FileFormat.parse format).mapError FormatError.message
  let change := d.add name data f
  match change.error? with
  | some e => .error e.message
  | none => .ok change.disk.toBytes

/-- Bytes delivered, or the call ended with a diagnostic. -/
def finish (s : Session) (target : Option Nat) (result : Except String Bytes) : Progress :=
  match result with
  | .ok data => deliver inv s target data
  | .error message => (s.complain ("[0000] Error: " ++ message ++ "\n")).ended 1

mutual

/-- Where the call of the tool `name` stands after an action. -/
def perform (name : String) (s : Session) : Action → Progress
  | .write target data => (s.write target data).on
  | .args target => (s.write target (Text.utf8 (shownArgs inv))).on
  | .stdin => (s.write .out (inv.stdin?.getD (Text.utf8 "(none)"))).on
  | .copy file target edit =>
    match s.files.read inv.cwd (argument inv file) with
    | .ok data => deliver inv s target (edit.apply data)
    | .error _ => (s.complain "cannot read\n").ended 1
  | .put target data => deliver inv s (some target) data
  | .remove file =>
    match s.files.remove inv.cwd (argument inv file) with
    | .ok files => { s with files := files : Session }.on
    | .error _ => s.on
  | .extract disk name target => finish inv s target (extracted inv s disk (name.get inv))
  | .add disk name file format clock =>
    finish inv s (some disk) (added inv s disk (name.get inv) file (format.get inv) clock)
  | .whenArg arg body =>
    if inv.effectiveArgs.contains arg then performAll name s body else s.on
  | .crash message =>
    (s.complain ("thread '" ++ name ++ "' panicked at " ++ message ++ "\n")).ended 101
  | .exit code => s.ended code

/-- Where the call stands after actions in order, up to one that ends it. -/
def performAll (name : String) (s : Session) : List Action → Progress
  | [] => s.on
  | a :: more =>
    let p := perform name s a
    match p.code? with
    | some _ => p
    | none => performAll name p.session more

end

end

/-- The tool that carries out actions. -/
def tool (name : String) (actions : List Action) : Tool where
  name := name
  run inv files :=
    let p := performAll inv name ⟨[], [], files⟩ actions
    (.ok ⟨p.code?.getD 0, p.session.stdout, p.session.stderr⟩, p.session.files)

end TiBench.Script
