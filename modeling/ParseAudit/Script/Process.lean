import ParseAudit.Script.Reader
import ParseAudit.Script.Signal
/-!
# Texts, subshells and processes

The text of a script runs line by line, given what runs a command.  At its end the action of its
last trap is done.  A subshell runs commands without changing the variables of the script; a process
knows even less of the script: the marked variables and the streams.
-/

namespace ParseAudit.Script

/-- Runs a command.  It is told whether the answer of the command is tested, because a command that
is tested may fail. -/
abbrev Runner := Bool → Command → Exec Unit

namespace Process

/-! ## Texts -/

/-- Runs the lines of a text from a place on, and says whether there was a command.  The fuel bounds
the number of lines. -/
def runLines (run : Runner) (tested : Bool) : Nat → Cursor → Exec Bool
  | 0, _ => return false
  | fuel + 1, place => do
    match Reading.line?.run place with
    | .error e =>
      modify ({ · with line := e.line })
      Exec.fault (ofText ("Syntax error: " ++ e.reason))
    | .ok (none, _) => return false
    | .ok (some .nothing, next) => runLines run tested fuel next
    | .ok (some command, next) =>
      run tested command
      let _ ← runLines run tested fuel next
      return true

/-- Runs a text.  The status is zero if there is no command in it.  NUL characters are passed
over. -/
def runText (run : Runner) (tested : Bool) (text : List Char) : Exec Unit := do
  let text := text.filter (· != '\x00')
  if !(← runLines run tested (text.length + 1) (.start text)) then Exec.setStatus 0

/-! ## The end of a script -/

/-- Does the action of a trap.  It leaves the status as it was, unless it ends the script. -/
def perform (run : Runner) (action : List Char) : Exec Unit := do
  let before ← get
  set { before with trapped := some before.status }
  let stop ← Exec.attempt (runText run false action)
  modify ({ · with trapped := before.trapped })
  if stop != some .exit then Exec.setStatus before.status
  if let some stop := stop then throw stop

/-- Runs a computation to the end of its script: whatever stops it, the action for the end is done
then. -/
def finish (run : Runner) (body : Exec Unit) : Exec Unit := do
  match ← Exec.attempt body with
  | some (.killed signal) => throw (.killed signal)
  | _ =>
    let sh ← get
    if let some action := sh.traps.lookup Signal.scriptEnd then
      set { sh with traps := sh.traps.filter (·.1 != Signal.scriptEnd) }
      match ← Exec.attempt (perform run action) with
      | some (.killed signal) => throw (.killed signal)
      | _ => return ()

/-! ## Subshells and processes -/

/-- The traps that a subshell takes over: the signals that do nothing. -/
def ignored (sh : Shell) : List (String × List Char) := sh.traps.filter (·.2.isEmpty)

/-- Runs a computation in a subshell. -/
def subshell (run : Runner) (body : Exec Unit) : Exec Unit :=
  Exec.apart do
    modify fun sh => { sh with traps := ignored sh }
    finish run body

/-- What a subshell prints; its status is kept apart from that of the last command. -/
def outputOf (run : Runner) (command : Command) : Exec (List Char) := do
  let before := (← get).status
  let text ← Exec.output (subshell run (run false command))
  modify fun sh => { sh with outputStatus := sh.status, status := before }
  return text

/-- The state in which a process starts. -/
def started (sh : Shell) (name : List Char) (args : List (List Char)) : Shell :=
  { sh with
    bindings := sh.bindings.filter fun (_, v) => v.exported && v.value.isSome
    optionAt := (1, none)
    functions := []
    hidden := []
    name := name
    args := args
    status := 0
    besideStatus := none
    line := 0
    speaker := none
    loops := 0
    options := []
    traps := ignored sh
    trapped := none
    lost := false }

/-- Runs a computation as a process.  The status of one that was killed tells the signal. -/
def runApart (name : List Char) (args : List (List Char)) (body : Exec Unit) : Exec Unit := do
  let killed ← Exec.apartOrKilled do
    modify fun sh => started sh name args
    body
  if let some signal := killed then
    if let some text := Signal.remark? signal then Exec.remark (ofText text)
    Exec.setStatus (128 + signal)

end Process

end ParseAudit.Script
