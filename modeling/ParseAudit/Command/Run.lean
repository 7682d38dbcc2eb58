import ParseAudit.Check
import ParseAudit.Command.Line
import ParseAudit.Command.LogFilter
import ParseAudit.Publish
import ParseAudit.Report.Reading
/-!
# Running commands

A command reads and changes the file tree, prints, and ends with an exit code.  The code of a check
is that of its verdict once its report was written and published; any failure on the way replaces
the report by one that tells of the failure, and the code is 1.
-/

namespace ParseAudit

/-- What a run of the program leaves behind. -/
structure RunResult where
  tree : FileTree
  exitCode : UInt32
  stdout : String
  stderr : String

/-- What a run of the program needs from its surroundings. -/
structure Surroundings where
  environment : Environment
  clock : Clock
  /-- Answers calls of the parser. -/
  responder : Responder
  /-- Takes the lines that a check publishes. -/
  console : Console

namespace CommandLine

/-! ## The parts of commands -/

/-- The workspace: the root directory without links, or as it is written if it is not there. -/
def workspace (line : CommandLine) (t : FileTree) : String :=
  (t.canonical line.options.repoRoot).getD line.options.repoRoot

/-- The text of the settings document, which is blank if it cannot be read. -/
def document (line : CommandLine) (root : String) (t : FileTree) : Traced String :=
  let path := RepoPath.joinText root line.options.config
  match t.readText path with
  | .ok text => do
    Traced.log .debug .command ("loaded config from " ++ path)
    return text
  | .error _ => do
    Traced.log .debug .command ("no config at " ++ path ++ "; using flags only")
    return ""

/-- Writes a report. -/
def writeReport (path : String) (r : Report) : Action Unit :=
  Action.writeFile "write report" path r.serialize

/-- The label of the operating system, if it is not blank. -/
def labelOf (osName : Option String) : Option String :=
  osName.filter fun name => !Text.isBlankText name

/-- Reads the report at a path. -/
def readReport (path : String) (t : FileTree) : Except Failure Report := do
  let text ← Except.within ("read report: " ++ path) .file (t.readText path)
  Report.read text

/-! ## Check -/

/-- What a check does up to its exit code. -/
def checkBody (s : Surroundings) (line : CommandLine) (o : CheckOptions) (root : String) :
    Action UInt32 := do
  let found ← Action.look fun t => return t.isDirectory root
  if !found then Action.fail (.ofText ("repo root does not exist: " ++ root))
  let document ← Action.look (line.document root)
  let request : CheckRequest := ⟨root, labelOf o.osName, document, o.overrides⟩
  let result ← Check.run s.responder s.clock request
  (writeReport o.reportOut result.report).within "write report json"
  Action.log .info .command ("wrote report to " ++ o.reportOut)
  if o.writeMarkdown then
    (Action.writeFile "write text" o.markdownOut result.report.view.markdown).within
      "write markdown"
  (Publish.run s.console ⟨o.jobOutput, o.stepSummary, result.settings.maxAnnotations⟩
    result.report).within "publish results"
  return result.report.verdict.status.exitCode

/-- Replaces the report of a check that failed, if it can be written. -/
def reportFailure (s : Surroundings) (o : CheckOptions) (failure : Failure) : Action UInt32 := do
  Action.log .error .command failure.message
  let report := Check.failureReport failure (labelOf o.osName) s.clock.stop
  -- A report that cannot be written must not hide the failure itself.
  let _ ← (writeReport o.reportOut report).attempt
  Action.remarkLine ("parseguard error: " ++ failure.message)
  return 1

/-- The command `check`. -/
def runCheck (s : Surroundings) (line : CommandLine) (o : CheckOptions) : Action UInt32 := do
  let root ← Action.look fun t => return line.workspace t
  match ← (checkBody s line o root).attempt with
  | .ok code => return code
  | .error failure => reportFailure s o failure

/-! ## The other commands -/

/-- The command `resolve`. -/
def runResolve (line : CommandLine) (target : FileTarget) (o : Overrides)
    (output : Option String) : Action Unit := do
  let root ← Action.look fun t => return line.workspace t
  let document ← Action.look (line.document root)
  let files ← ResolveRequest.run ⟨root, document, o, target, output⟩
  if output.isNone then
    Action.print (String.join (files.toList.map fun file => file.text ++ "\n"))

/-- The command `md`. -/
def runMarkdown (path : String) (output : Option String) : Action Unit := do
  let report ← Action.look fun t => .ofExcept (readReport path t)
  match output with
  | some place =>
    (Action.writeFile "write text" place report.view.markdown).within "write markdown output"
  | none => Action.print report.view.markdown

/-- The command `annotations`. -/
def runAnnotations (path : String) (max : Nat) : Action Unit := do
  let report ← Action.look fun t => .ofExcept (readReport path t)
  Action.print (String.join ((report.view.cappedAnnotations max).map (· ++ "\n")))

/-! ## Everything -/

/-- The level of the log that the flags ask for. -/
def level (line : CommandLine) : Level :=
  if line.options.debug then .debug
  else if line.options.verbose then .info
  else .warn

/-- What of the log is shown: the environment decides before the flags. -/
def logFilter (s : Surroundings) (line : CommandLine) : LogFilter :=
  ((s.environment.lookup "RUST_LOG").bind LogFilter.parse?).getD (.upTo line.level)

/-- Runs a command up to its exit code. -/
def run (s : Surroundings) (line : CommandLine) : Action UInt32 := do
  Action.log .debug .command
    ("Logging initialized at level: " ++ line.level.name.map Char.toLower)
  match line.command with
  | .check o => runCheck s line o
  | .resolve target o output => do
    runResolve line target o output
    return 0
  | .markdown report output => do
    runMarkdown report output
    return 0
  | .annotations report max => do
    runAnnotations report max
    return 0

end CommandLine

namespace Failure

/-- A cause in a list of causes: its further lines stand as deep as its first one. -/
def indented (head : String) (indent : Nat) (text : String) : String :=
  head ++ Text.replaceAll "\n" ("\n" ++ String.ofList (List.replicate indent ' ')) text ++ "\n"

/-- The number of a cause, right-aligned. -/
def causeNumber (n : Nat) : String :=
  let digits := Text.natural n
  String.ofList (List.replicate (5 - digits.length) ' ') ++ digits ++ ": "

/-- A failure with its causes below it. -/
def report (f : Failure) : String :=
  match f.chain with
  | [] => ""
  | [top] => "Error: " ++ top ++ "\n"
  | [top, cause] => "Error: " ++ top ++ "\n\nCaused by:\n" ++ indented "    " 4 cause
  | top :: causes =>
    "Error: " ++ top ++ "\n\nCaused by:\n" ++ String.join
      (causes.zipIdx.map fun (cause, n) => indented (causeNumber n) 7 cause)

end Failure

namespace RunResult

/-- The result of an action that ends with an exit code; a failure is shown with its causes. -/
def ofEffect (filter : LogFilter) (e : Effect UInt32) : RunResult :=
  let said := filter.text e.traced.events
  match e.traced.outcome with
  | .ok code => ⟨e.tree, code, e.printed, said⟩
  | .error failure => ⟨e.tree, 1, e.printed, said ++ failure.report⟩

end RunResult

/-- How to use the program, in a few lines. -/
def usage : String :=
  "Usage: parseguard [OPTIONS] <check|resolve|md|annotations> [OPTIONS]\n\n"
    ++ "  check        Run the parser over the configured files and write artifacts\n"
    ++ "  resolve      Resolve a file set and print it (or write it as a list file)\n"
    ++ "  md           Render markdown from an existing JSON report\n"
    ++ "  annotations  Render GitHub Actions annotations from an existing JSON report\n"

/-- Runs the program on the words of its command line. -/
def runProgram (s : Surroundings) (t : FileTree) (words : List String) : RunResult :=
  match CommandLine.read s.environment words with
  | .error .misuse => ⟨t, 2, "", usage⟩
  | .error .help => ⟨t, 0, usage, ""⟩
  | .error .version => ⟨t, 0, Tool.current.name ++ " " ++ Tool.current.version ++ "\n", ""⟩
  | .ok line => .ofEffect (line.logFilter s) (line.run s t)

end ParseAudit
