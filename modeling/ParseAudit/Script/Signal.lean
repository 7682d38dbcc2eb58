import ParseAudit.Script.Shell
/-!
# Signals

A signal is known by a number and by a name.  It may have an action, end the script, or do nothing.
The number zero stands for the end of the script, which can have an action like a signal.
-/

namespace ParseAudit.Script.Signal

/-- The names of signals in the order of their numbers. -/
def names : List String := [
  "EXIT", "HUP", "INT", "QUIT", "ILL", "TRAP", "ABRT", "BUS", "FPE", "KILL", "USR1", "SEGV",
  "USR2", "PIPE", "ALRM", "TERM", "STKFLT", "CHLD", "CONT", "STOP", "TSTP", "TTIN", "TTOU", "URG",
  "XCPU", "XFSZ", "VTALRM", "PROF", "WINCH", "IO", "PWR", "SYS"]

/-- How many numbers of signals there are. -/
def count : Nat := 65

/-- The name of the end of the script. -/
def scriptEnd : String := "EXIT"

/-- The name of the signal with the given number. -/
def name (n : Nat) : String := names[n]?.getD (Text.natural n)

/-- The number that a text gives a signal. -/
def ofDigits? (s : List Char) : Option Nat :=
  if s.isEmpty || !s.all Char.isDigit then none else Chars.naturalBelow? count s

/-- The number of a signal, which is given by it or by the name; that of the end is not for
everyone. -/
def read? (isEndAllowed : Bool) (s : List Char) : Option Nat :=
  match ofDigits? s with
  | some n => some n
  | none =>
    (names.findIdx? fun name => name.toList == s.map Char.toUpper).filter fun n =>
      isEndAllowed || n != 0

/-- The signals that do nothing if they have no action. -/
def harmless : List String := ["CHLD", "CONT", "URG", "WINCH", "STOP", "TSTP", "TTIN", "TTOU"]

/-- The signals that no action can be given. -/
def unstoppable : List String := ["KILL", "STOP"]

/-- What is said when a command was killed. -/
def remark? (n : Nat) : Option String :=
  match name n with
  | "HUP" => some "Hangup"
  | "QUIT" => some "Quit"
  | "ILL" => some "Illegal instruction"
  | "TRAP" => some "Trace/breakpoint trap"
  | "ABRT" => some "Aborted"
  | "BUS" => some "Bus error"
  | "FPE" => some "Floating point exception"
  | "KILL" => some "Killed"
  | "USR1" => some "User defined signal 1"
  | "SEGV" => some "Segmentation fault"
  | "USR2" => some "User defined signal 2"
  | "ALRM" => some "Alarm clock"
  | "TERM" => some "Terminated"
  | _ => none

/-- Receives a signal, given how the action of a trap is done. -/
def receive (perform : List Char → Exec Unit) (n : Nat) : Exec Unit := do
  let sh ← get
  let action := if unstoppable.contains (name n) then none else sh.traps.lookup (name n)
  match action with
  | some action => if !action.isEmpty then perform action
  | none => if n != 0 && !harmless.contains (name n) then throw (.killed n)

end ParseAudit.Script.Signal
