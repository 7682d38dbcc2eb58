import ParseAudit.Report.Basic
/-!
# What is shown of a report

The part of a report that readers are shown: the verdict, the findings without their digests, and
the figures.  Titles are qualified with the label of the operating system where one is known.
-/

namespace ParseAudit

/-- What is shown of a finding. -/
structure FindingView where
  severity : Severity
  code : String
  message : String
  location : Option Location
  help : Option String
  deriving DecidableEq, Repr

/-- What is shown of a report. -/
structure ReportView where
  verdict : VerdictStatus
  findings : List FindingView
  totalFiles : UInt32
  successful : UInt32
  expectedInvalid : UInt32
  failures : List RepoPath
  allowlistViolations : List RepoPath
  os : Option String
  deriving DecidableEq, Repr

namespace Finding

/-- What is shown of a finding. -/
def view (f : Finding) : FindingView :=
  ⟨f.severity, f.code, f.message, f.location, f.help⟩

end Finding

namespace Report

/-- What is shown of a report. -/
def view (r : Report) : ReportView where
  verdict := r.verdict.status
  findings := r.findings.map Finding.view
  totalFiles := r.data.totalFiles
  successful := r.data.successful
  expectedInvalid := r.data.expectedInvalid
  failures := r.data.failures
  allowlistViolations := r.data.allowlistViolations
  os := r.run.os

end Report

/-- A title with the label of the operating system, if there is one. -/
def qualifiedTitle (os : Option String) (title : String) : String :=
  match os with
  | none => title
  | some os => if os.isEmpty then title else title ++ " (" ++ os ++ ")"

namespace ReportView

/-- A title with the label of the operating system of the report. -/
def qualify (r : ReportView) (title : String) : String := qualifiedTitle r.os title

end ReportView

end ParseAudit
