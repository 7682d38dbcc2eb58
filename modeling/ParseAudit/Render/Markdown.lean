import ParseAudit.Render.View
/-!
# The summary in Markdown

A report as a document for people: the verdict, a table of the figures, the files that failed, the
files of the allowlist that parse after all, and the errors in detail.
-/

namespace ParseAudit

namespace VerdictStatus

/-- The word for a verdict. -/
def word : VerdictStatus → String
  | pass => "PASS"
  | warn => "WARN"
  | fail => "FAIL"

end VerdictStatus

namespace ReportView

/-- How many of the files failed. -/
def failedOfTotal (r : ReportView) : String :=
  Text.natural r.failures.length ++ "/" ++ coordinateText r.totalFiles

/-- The heading and the verdict. -/
def markdownHead (r : ReportView) : String :=
  "## " ++ r.qualify "Parsing results" ++ "\n\n- Verdict: **" ++ r.verdict.word ++ "**\n\n"

/-- The table of the figures. -/
def markdownTable (r : ReportView) : String :=
  "| Total files | Successful | Invalid syntax | Parsing errors |\n|---|---|---|---|\n| "
    ++ " | ".intercalate [coordinateText r.totalFiles, coordinateText r.successful,
      coordinateText r.expectedInvalid, Text.natural r.failures.length] ++ " |\n"

/-- A list of files. -/
def markdownFiles (files : List RepoPath) : String :=
  String.join (files.map fun file => "- `" ++ file.text ++ "`\n")

/-- The files that failed. -/
def markdownFailures (r : ReportView) : String :=
  if r.failures.isEmpty then ""
  else "\n### Parsing errors\n\nFailed to parse " ++ r.failedOfTotal ++ " files:\n\n"
    ++ markdownFiles r.failures

/-- The files of the allowlist that parse cleanly. -/
def markdownViolations (r : ReportView) : String :=
  if r.allowlistViolations.isEmpty then ""
  else "\n### Unexpectedly valid syntax\n\nListed as invalid but parsed without errors:\n\n"
    ++ markdownFiles r.allowlistViolations

/-- An error in detail. -/
def markdownDetail (f : FindingView) : String :=
  match f.location with
  | some l =>
    "- `" ++ l.path.text ++ "`:" ++ coordinateText (l.line.getD 0) ++ ": " ++ f.message ++ "\n"
  | none => "- " ++ f.message ++ "\n"

/-- All errors in detail. -/
def markdownDetails (r : ReportView) : String :=
  let errors := r.findings.filter (·.severity == .error)
  if errors.isEmpty then ""
  else "\n<details><summary>Error details</summary>\n\n"
    ++ String.join (errors.map markdownDetail) ++ "\n</details>\n"

/-- The document for a report. -/
def markdown (r : ReportView) : String :=
  r.markdownHead ++ r.markdownTable ++ r.markdownFailures ++ r.markdownViolations
    ++ r.markdownDetails

end ReportView

end ParseAudit
