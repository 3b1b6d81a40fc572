import TiBench.Tool.Basic

/-!
# Steps

A call of a tool in a scenario. Its arguments are templates, in which a variable stands between
braces. Each scenario has a workspace of its own, a directory in which its files are.
-/

namespace TiBench

namespace Workspace

/-- The directory of a workspace. -/
def path : Path := ["tmp", "tibench-scratch"]

/-- The files at the start: none but the directory. -/
def files : FileTree := FileTree.empty.makeDirectories path

/-- The path of a file in the workspace, as text. An absolute path is itself. -/
def fileText (name : String) : String :=
  if name.toList.head? = some '/' then name else FileTree.pathText path ++ "/" ++ name

end Workspace

/-- The variables of templates, with their values, in the order in which they are replaced. -/
abbrev Variables := List (String × String)

namespace Template

/-- A template with the value of a variable in each place where it stands between braces. -/
def replace (template name value : String) : String :=
  String.ofList
    (Pieces.replaceAll '\x7b' (name.toList ++ ['\x7d']) value.toList template.toList)

/-- A template with the variables replaced, one after the other. -/
def expand (vars : Variables) (template : String) : String :=
  vars.foldl (fun text v => replace text v.1 v.2) template

end Template

/-- A call of a tool. -/
structure Step where
  tool : Tool
  args : List String
  defaults? : Option String

namespace Step

/-- The variable that stands for the file of a step's result. -/
def outputVariable : String := "\x7bout\x7d"

/-- Whether the result of the step is a file, and not the tool's output. -/
def writesFile (s : Step) : Bool := s.args.any fun a => Tool.holds outputVariable.toList a.toList

/-- The call with the variables replaced. -/
def invocation (s : Step) (vars : Variables) : Invocation where
  args := s.args.map (Template.expand vars)
  stdin? := none
  cwd := Workspace.path
  defaults? := s.defaults?

end Step

end TiBench
