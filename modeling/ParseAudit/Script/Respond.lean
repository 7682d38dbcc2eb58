import ParseAudit.Invocation.Collect
import ParseAudit.Script.Run
/-!
# Answering calls by scripts

Calls of the parser are answered by running scripts: the shell with a script as its argument or in
a file, a file that is executable, or one of the tools by itself.  A program that is not there, and
a directory or a plain file in the place of a program, cannot be run.
-/

namespace ParseAudit.Script

/-- The state in which a program starts, which is told its surroundings. -/
def surrounded (environment : Environment) (t : FileTree) : Shell where
  tree := t
  path := []
  bindings := environment.map fun (name, value) =>
    (ofText name, ⟨some (ofText value), true, false⟩)
  functions := []
  hidden := []
  name := []
  args := []
  optionAt := (1, none)
  status := 0
  outputStatus := 0
  besideStatus := none
  line := 0
  speaker := none
  loops := 0
  options := []
  mask := 18
  traps := []
  trapped := none
  lost := false
  streams := [(0, .nowhere), (1, .outlet 1), (2, .outlet 2)]
  outlets := [(1, []), (2, [])]
  inlets := []
  fresh := 3

/-- The tree as seen from the directory of a call. -/
def enter (t : FileTree) (directory : String) : Except FileError FileTree :=
  match t.spot directory with
  | .ok (.found place (.directory _)) => .ok { t with directory := place }
  | .ok (.found ..) => .error .notADirectory
  | .ok (.free ..) => .error .notFound
  | .error e => .error e

/-- How many octets an argument of a program can have. -/
def argumentLimit : Nat := 131071

/-- Runs a program; fails if it cannot be started. -/
def runProgram (program : String) (args : List String) : Exec (Option FileError) := do
  let name := ofText program
  let words := args.map ofText
  match ← Program.start Run.command Program.startLimit name words with
  | .error e => return some e
  | .ok body =>
    if (program :: args).any (argumentLimit < ·.utf8ByteSize) then return some .argumentTooLong
    modify (Process.started · name words)
    body
    return none

/-- What a call of a program gives, and what the program says on the side.  What the program did to
the tree stays done. -/
def callProgram (environment : Environment) (i : Invocation) (t : FileTree) :
    FileTree × Except FileError (CallResult × String) :=
  if (i.program :: i.directory :: i.args).any (·.toList.contains '\x00') then (t, .error .nulInCall)
  else
    match enter t i.directory with
    | .error e => (t, .error e)
    | .ok inside =>
      let before := (surrounded environment inside).giveDefault Program.systemPath
      let (outcome, sh) := (runProgram i.program i.args).run.run before
      let result : Except FileError (Option Int) := match outcome with
        | .ok (some e) => .error e
        | .error (.killed _) => .ok none
        | _ => .ok (some (sh.status % 256 : Nat))
      ({ sh.tree with directory := t.directory }, result.map fun status =>
        (⟨toText (sh.written 1), status⟩, toText (sh.written 2)))

/-- Answers calls by running programs. -/
def respond (environment : Environment) : Responder := fun _ i => do
  Action.log .debug .runner ("running " ++ i.program ++ " with " ++ Text.natural i.args.length
    ++ " argument(s) in " ++ i.directory)
  let (result, said) ←
    Action.perform ("spawn parser `" ++ i.program ++ "`") (callProgram environment i)
  if !Text.isBlankText said then
    Action.log .debug .runner ("parser stderr: " ++ Text.trimEnd said)
  return result

end ParseAudit.Script
