import ParseAudit.Action
import ParseAudit.Render.WorkflowCommand
import ParseAudit.Render.Markdown
/-!
# Publishing a report

A report is published to the host of a build: annotations go to the console, the files that failed
are appended to the file of job outputs, and the summary is appended to the file of step summaries.
Each of these can fail, and then nothing more is published.
-/

namespace ParseAudit

/-- Where a report is published. -/
structure Destinations where
  /-- The file of job outputs. -/
  jobOutput : Option String
  /-- The file of step summaries. -/
  stepSummary : Option String
  maxAnnotations : Nat

namespace Publish

/-! ## Job outputs -/

/-- The delimiter of a job output, unless a line of it reads the same. -/
def delimiterBase : String := "PARSEGUARD_EOF"

/-- Adds `_` to a delimiter for as long as it is among the lines.  The fuel bounds how often. -/
def delimiterFrom : Nat → String → List String → String
  | 0, delimiter, _ => delimiter
  | fuel + 1, delimiter, lines =>
    if lines.contains delimiter then delimiterFrom fuel (delimiter ++ "_") lines else delimiter

/-- A delimiter that is none of the lines.  Of as many candidates as there are lines and one more,
one is free. -/
def delimiter (lines : List String) : String :=
  delimiterFrom (lines.length + 1) delimiterBase lines

/-- A job output of several lines between delimiters. -/
def outputEntry (name : String) (lines : List String) : String :=
  let stop := delimiter lines
  name ++ "<<" ++ stop ++ "\n" ++ String.join (lines.map (· ++ "\n")) ++ stop ++ "\n"

/-! ## Everything -/

/-- Appends a text to a file, which is made if it is not there. -/
def append (path text : String) : Action Unit :=
  Action.change ("open " ++ path)
    (·.modifyOctets (Octets.ofText path) fun content => content ++ Octets.ofText text)

/-- Appends the files that failed to the file of job outputs. -/
def appendJobOutput (r : Report) (path : String) : Action Unit := do
  (append path (outputEntry "failures" (r.data.failures.map RepoPath.text))).within
    "write GITHUB_OUTPUT"
  Action.log .debug .publish ("wrote job outputs to " ++ path)

/-- Appends the summary to the file of step summaries. -/
def appendStepSummary (r : Report) (path : String) : Action Unit := do
  (append path r.view.markdown).within "write GITHUB_STEP_SUMMARY"
  Action.log .debug .publish ("wrote step summary to " ++ path)

/-- The line on the files that failed, if there are any. -/
def failureSummary (r : Report) : List String :=
  if r.data.failures.isEmpty then []
  else ["::error::Failed to parse " ++ r.view.failedOfTotal ++ " files"]

/-- Writes the lines of a report to a console, and gives all that was written. -/
def announce (console : Console) (d : Destinations) (r : Report) : Action String := do
  let shown := r.view.cappedAnnotations d.maxAnnotations
  let omitted := r.findings.length - shown.length
  let written ← Action.writeLines console "write group start" ""
    [WorkflowCommand.groupStart "Parsing files"]
  let written ← Action.writeLines console "write annotation" written shown
  if omitted > 0 then
    Action.log .info .publish (Text.natural omitted ++ " annotation(s) omitted (max_annotations = "
      ++ Text.natural d.maxAnnotations ++ ")")
  let written ← Action.writeLines console "write group end" written [WorkflowCommand.groupEnd]
  Action.writeLines console "write failure summary" written (failureSummary r)

/-- Publishes a report. -/
def run (console : Console) (d : Destinations) (r : Report) : Action Unit := do
  let written ← announce console d r
  if let some path := d.jobOutput then appendJobOutput r path
  if let some path := d.stepSummary then appendStepSummary r path
  Action.flush console "flush stdout" written

end Publish

end ParseAudit
