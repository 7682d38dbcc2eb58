import ParseAudit.Action
import ParseAudit.Invocation.Plan
/-!
# Collecting records

The planned calls are made one after another, and the output of each is read before the next one is
made; the first call that fails, or whose output breaks the line grammar, ends it all.  Without
files no call is made.  The exit status of a call is noted and says nothing.
-/

namespace ParseAudit

/-- What answers the calls of the parser.  It is told how many calls were made before, and it may
change the file tree. -/
abbrev Responder := Nat → Invocation → Action CallResult

namespace Invocation

/-- The text of an exit status. -/
def statusText : Option Int → String
  | none => "None"
  | some n => "Some(" ++ toString n ++ ")"

/-- Whether an unmatched line seems to carry an error node. -/
def looksLikeErrorNode (line : String) : Bool :=
  (Line.splitToken line.toList).2.getLast? == some ')'

/-- Notes a line that names no file of the call. -/
def noteUnmatched (line : String) : Action Unit :=
  if looksLikeErrorNode line then
    Action.log .warn .runner
      ("parser reported an error node for a file that was not checked: " ++ line)
  else Action.log .debug .runner ("ignoring parser output line: " ++ line)

/-- Notes the lines that name no file of the call. -/
def noteAllUnmatched : List String → Action Unit
  | [] => return ()
  | line :: lines => do
    noteUnmatched line
    noteAllUnmatched lines

/-- Reads the output of the call for a run of files. -/
def scanRun (settings : Settings) (directory : String) (run : List RepoPath) (stdout : String) :
    Except Failure ScanOutput :=
  match settings.mode, run with
  | .perFile, [file] =>
    Except.within ("scan parser output for " ++ file.text) .scan
      (Scan.single stdout file directory)
  | _, run =>
    Except.within "scan parser output" .scan (Scan.batch stdout (.ofList run) directory)

/-- Notes the exit status of a call. -/
def noteStatus (settings : Settings) (run : List RepoPath) (status : Option Int) : Action Unit :=
  let text := "parser exited with " ++ statusText status
  Action.log .debug .runner (match settings.mode, run with
    | .perFile, [file] => text ++ " for " ++ file.text
    | _, _ => text)

/-- Makes the call for a run of files and reads its output. -/
def callRun (respond : Responder) (settings : Settings) (directory : String) (made : Nat)
    (run : List RepoPath) : Action ScanOutput := do
  let invocation := forRun settings directory run
  Action.ofTraced (.noteCall invocation)
  let result ← respond made invocation
  noteStatus settings run result.status
  let scanned ← Action.ofExcept (scanRun settings directory run result.stdout)
  noteAllUnmatched scanned.unmatched
  return scanned

/-- Makes the calls for some runs of files, after `made` calls. -/
def callRuns (respond : Responder) (settings : Settings) (directory : String) :
    Nat → List (List RepoPath) → Action ScanOutput
  | _, [] => return .nil
  | made, run :: runs => do
    let first ← callRun respond settings directory made run
    let others ← callRuns respond settings directory (made + 1) runs
    return first ++ others

/-- Makes the calls for a set of files and collects what they say. -/
def collect (respond : Responder) (settings : Settings) (files : FileSet) (directory : String) :
    Action ScanOutput :=
  if files.isEmpty then do
    Action.log .info .runner "no files to parse; skipping parser invocation"
    return .nil
  else do
    let runs := runsFor settings files
    if settings.mode = .batch ∧ runs.length > 1 then
      Action.log .info .runner ("splitting " ++ Text.natural files.size ++ " file(s) into "
        ++ Text.natural runs.length ++ " parser invocations")
    callRuns respond settings directory 0 runs

end Invocation

end ParseAudit
