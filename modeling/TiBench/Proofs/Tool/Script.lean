import TiBench.Tool.Script
import TiBench.Proofs.FileTree

/-!
# Laws of scripted tools

What a tool of one action gives: it delivers bytes to its output or to a file.
-/

namespace TiBench.Script

variable {inv : Invocation} {name : String} {s : Session} {files files' : FileTree}
  {data payload : Bytes} {a : Action}

theorem performAll_singleton (a : Action) : performAll inv name s [a] = perform inv name s a := by
  rw [performAll]
  rcases hp : perform inv name s a with ⟨s', _ | code⟩
  · simp only [performAll]; rfl
  · rfl

/-- What a tool gives that delivers bytes to its output. -/
theorem run_of_output (h : perform inv name ⟨[], [], files⟩ a
    = deliver inv ⟨[], [], files⟩ none data) :
    (tool name [a]).run inv files = (.ok ⟨0, data, []⟩, files) := by
  simp only [tool, performAll_singleton, h, deliver]
  rfl

/-- What a tool gives that delivers bytes to a file. -/
theorem run_of_file {index : Nat} (h : perform inv name ⟨[], [], files⟩ a
    = deliver inv ⟨[], [], files⟩ (some index) data)
    (hwrite : files.write inv.cwd (argument inv index) data = .ok files') :
    (tool name [a]).run inv files = (.ok ⟨0, [], []⟩, files') := by
  simp only [tool, performAll_singleton, h, deliver, hwrite]
  rfl

theorem perform_copy {file : Nat} {target : Option Nat} {edit : Edit}
    (h : s.files.read inv.cwd (argument inv file) = .ok data) :
    perform inv name s (.copy file target edit) = deliver inv s target (edit.apply data) := by
  simp only [perform, h]

theorem perform_extract {disk : Nat} {source : Source} {target : Option Nat}
    (h : extracted inv s disk (source.get inv) = .ok data) :
    perform inv name s (.extract disk source target) = deliver inv s target data := by
  simp only [perform, h, finish]

theorem perform_add {disk file : Nat} {source format : Source} {clock : Timestamp}
    (h : added inv s disk (source.get inv) file (format.get inv) clock = .ok data) :
    perform inv name s (.add disk source file format clock) = deliver inv s (some disk) data := by
  simp only [perform, h, finish]

/-- Bytes that are delivered to a file change no other file. -/
theorem get?_deliver {index : Nat} {p : Path}
    (hp : s.files.locate inv.cwd (argument inv index) ≠ .ok p) :
    (deliver inv s (some index) data).session.files.get? p = s.files.get? p := by
  rw [deliver]
  cases hwrite : s.files.write inv.cwd (argument inv index) data with
  | ok files => exact FileTree.get?_of_write hwrite hp
  | error e => rfl

theorem get?_tool_copy {file index : Nat} {edit : Edit} {p : Path}
    (hp : files.locate inv.cwd (argument inv index) ≠ .ok p) :
    ((tool name [.copy file (some index) edit]).run inv files).2.get? p = files.get? p := by
  simp only [tool, performAll_singleton]
  cases hread : files.read inv.cwd (argument inv file) with
  | ok data =>
      rw [perform_copy (s := ⟨[], [], files⟩) hread]
      exact get?_deliver (s := ⟨[], [], files⟩) hp
  | error e => simp only [perform, hread]; rfl

end TiBench.Script
