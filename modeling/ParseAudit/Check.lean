import ParseAudit.Audit.Evaluation
import ParseAudit.Invocation.Collect
import ParseAudit.Render.View
import ParseAudit.Selection.Resolve
import ParseAudit.Settings.Resolve
/-!
# Checking

A check resolves its settings and both sets of files, has the parser run over the files to check,
and holds what the parser says against the allowlist.  Its report tells of all of that.  Unusable
settings and unreadable parser output end a check with a failure; errors in files never do.
-/

namespace ParseAudit

/-- When a check started and when it ended. -/
structure Clock where
  start : Timestamp
  stop : Timestamp

/-- What a check needs to know. -/
structure CheckRequest where
  /-- The directory that files are seen from and that the parser runs in. -/
  workspace : String
  os : Option String
  /-- The text of the settings document, which may be blank. -/
  document : String
  overrides : Overrides

/-- What a check finds out. -/
structure CheckResult where
  report : Report
  tally : Tally
  settings : Settings

namespace Tally

/-- The figures of a report. -/
def summary (t : Tally) (settings : Settings) : Summary where
  parser := settings.parser
  mode := settings.mode.name
  totalFiles := .ofNat t.total
  successful := .ofNat t.successful
  expectedInvalid := .ofNat t.expectedInvalid
  failures := t.failures
  allowlistViolations := t.allowlistViolations

/-- The figures in one line. -/
def oneLine (t : Tally) : String :=
  Text.natural t.total ++ " file(s): " ++ Text.natural t.successful ++ " successful, "
    ++ Text.natural t.expectedInvalid ++ " invalid syntax, " ++ Text.natural t.failures.length
    ++ " parsing error(s)"

end Tally

namespace Evaluation

/-- The verdict of a report. -/
def verdict (e : Evaluation) : Verdict where
  status := e.status
  counts := ⟨.ofNat e.counts.info, .ofNat e.counts.warning, .ofNat e.counts.error⟩
  reasons := e.reasons

/-- The report on an evaluation. -/
def report (e : Evaluation) (settings : Settings) (os : Option String) (clock : Clock) :
    Report where
  schema := Report.schemaId
  tool := .current
  run := ⟨clock.start, some clock.stop, some (clock.start.millisecondsTo clock.stop), os⟩
  verdict := e.verdict
  findings := e.findings
  data := e.tally.summary settings

end Evaluation

namespace Check

/-- Resolves the settings of a check. -/
def settingsOf (request : CheckRequest) : Except Failure Settings := do
  let document ← SettingsDocument.parseOrEmpty request.document
  (Settings.resolve document request.overrides).mapError (.within "resolve config")

/-- Runs a check. -/
def run (respond : Responder) (clock : Clock) (request : CheckRequest) : Action CheckResult := do
  let settings ← Action.ofExcept (settingsOf request)
  -- Both sets are resolved before the parser is called at all.
  let targets ← (Action.look fun t =>
    Selection.resolve t request.workspace settings.files).within "resolve files"
  if targets.isEmpty then
    Action.log .warn .check "file patterns matched no files"
  let invalid ← (Action.look fun t =>
    Selection.resolve t request.workspace settings.invalidFiles).within "resolve invalid files"
  Action.log .info .check ("checking " ++ Text.natural targets.size ++ " file(s) with "
    ++ Text.natural invalid.size ++ " known-invalid")
  let scanned ← Invocation.collect respond settings targets request.workspace
  let evaluation := Evaluation.ofRecords scanned.records invalid
  Action.log .info .check evaluation.tally.oneLine
  return ⟨evaluation.report settings request.os clock, evaluation.tally, settings⟩

/-- The report on a check that failed. -/
def failureReport (failure : Failure) (os : Option String) (now : Timestamp) : Report where
  schema := Report.schemaId
  tool := .current
  run := ⟨now, some now, some 0, os⟩
  verdict := ⟨.fail, ⟨0, 0, 1⟩, [Verdict.toolError]⟩
  findings := [{
    severity := .error
    checkId := Finding.runtimeCheck
    code := if failure.cause.isScan then Finding.unrecognizedOutputCode
      else Finding.runtimeErrorCode
    message := failure.message
    location := none
    help := some "fix the configuration or parser invocation and re-run"
    fingerprint := none
    data := .null }]
  data := ⟨"", "", 0, 0, 0, [], []⟩

end Check

namespace VerdictStatus

/-- The exit code for a verdict. -/
def exitCode : VerdictStatus → UInt32
  | pass => 0
  | warn => 0
  | fail => 2

end VerdictStatus

end ParseAudit
