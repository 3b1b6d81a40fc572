import TiBench.Shell.FilePrograms
import TiBench.Shell.StreamPrograms

/-!
# Standard programs

The programs that need no shell, by name.
-/

namespace TiBench.Shell

/-- The program that does nothing and succeeds. -/
def succeed : Program := fun p files => prints p files 0 [] []

/-- The program that does nothing and fails. -/
def fail : Program := fun p files => prints p files 1 [] []

/-- The standard programs by name. -/
def standard : String → Option Program
  | "true" | "sleep" => some succeed
  | "false" => some fail
  | "cat" => some concatenate
  | "cp" => some copy
  | "mv" => some move
  | "rm" => some removeFiles
  | "rmdir" => some removeDirectories
  | "touch" => some makeFiles
  | "mkdir" => some makeDirectories
  | "ls" => some listNames
  | "echo" => some plainEcho
  | "printf" => some printFormat
  | "head" => some head
  | "tail" => some tail
  | "tac" => some lastLinesFirst
  | "wc" => some count
  | "tee" => some tee
  | "tr" => some translate
  | "sort" => some sortLines
  | "uniq" => some distinctLines
  | "rev" => some reverseLines
  | "seq" => some numbers
  | "yes" => some sameLine
  | "basename" => some lastName
  | "dirname" => some parentName
  | "printenv" => some printVariables
  | "test" | "[" => some test
  | _ => none

end TiBench.Shell
