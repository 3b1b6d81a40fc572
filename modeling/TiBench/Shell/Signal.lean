import TiBench.Text.Number

/-!
# Signals

The signals that scripts send and wait for: their names and numbers, what is said of a program that
one has ended, and which of them end none.
-/

namespace TiBench.Shell.Signal

/-- The signals from number 1 on: each name, and what is said of a program that it has ended. -/
def table : List (String × String) := [
  ("HUP", "Hangup"), ("INT", "Interrupt"), ("QUIT", "Quit"), ("ILL", "Illegal instruction"),
  ("TRAP", "Trace/breakpoint trap"), ("ABRT", "Aborted"), ("BUS", "Bus error"),
  ("FPE", "Floating point exception"), ("KILL", "Killed"), ("USR1", "User defined signal 1"),
  ("SEGV", "Segmentation fault"), ("USR2", "User defined signal 2"), ("PIPE", "Broken pipe"),
  ("ALRM", "Alarm clock"), ("TERM", "Terminated"), ("STKFLT", "Stack fault"),
  ("CHLD", "Child exited"), ("CONT", "Continued"), ("STOP", "Stopped (signal)"),
  ("TSTP", "Stopped"), ("TTIN", "Stopped (tty input)"), ("TTOU", "Stopped (tty output)"),
  ("URG", "Urgent I/O condition"), ("XCPU", "CPU time limit exceeded"),
  ("XFSZ", "File size limit exceeded"), ("VTALRM", "Virtual timer expired"),
  ("PROF", "Profiling timer expired"), ("WINCH", "Window changed"), ("IO", "I/O possible"),
  ("PWR", "Power failure"), ("SYS", "Bad system call")]

/-- The number that stands for the end of the script, which is no signal. -/
def atExit : Nat := 0

/-- The number by which a program is ended at once. -/
def kill : Nat := 9

/-- The number by which a program is asked to end. -/
def terminate : Nat := 15

/-- One more than the greatest number. -/
def bound : Nat := 65

/-- The number that a text writes or names, in capital or small letters. -/
def number? (text : String) : Option Nat :=
  let name := String.ofList (text.toList.map Char.toUpper)
  if name = "EXIT" then some atExit
  else match Text.number? 10 bound text.toList with
    | some n => some n
    | none => (table.findIdx? (·.1 == name)).map (· + 1)

/-- The name of a number. -/
def name (n : Nat) : String :=
  if n = atExit then "EXIT" else (table[n - 1]?).elim (toString n) Prod.fst

/-- What is said of a program that a signal has ended, if anything is. -/
def notice? (n : Nat) : Option String :=
  if name n ∈ ["INT", "PIPE"] then none
  else some ((table[n - 1]?).elim ("Real-time signal " ++ toString (n - 34)) Prod.snd)

/-- Whether a signal leaves a program running that does not wait for it. -/
def isHarmless (n : Nat) : Bool := name n ∈ ["EXIT", "CHLD", "CONT", "URG", "WINCH"]

end TiBench.Shell.Signal
