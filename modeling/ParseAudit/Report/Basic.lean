import ParseAudit.Json.Value
import ParseAudit.Region
import ParseAudit.Timestamp
/-!
# The audit report

The envelope that one audit leaves behind: what ran and when, the verdict with its reasons and
counts, the findings, and a summary of the files.  Texts that other tools rely on (schema, check
and code identifiers, verdict reasons) are fixed here.
-/

namespace ParseAudit

/-- How much a finding weighs. -/
inductive Severity where
  | info
  | warning
  | error
  deriving DecidableEq, Repr, Inhabited

namespace Severity

/-- The order of severities: the heavier one is greater. -/
def weight : Severity → Nat
  | info => 0
  | warning => 1
  | error => 2

end Severity

/-- The outcome of an audit as a whole. -/
inductive VerdictStatus where
  | pass
  | warn
  | fail
  deriving DecidableEq, Repr, Inhabited

/-- One thing that an audit has to say. -/
structure Finding where
  severity : Severity
  checkId : String
  code : String
  message : String
  location : Option Location
  help : Option String
  /-- A digest of what identifies the finding, the same in every run. -/
  fingerprint : Option String
  /-- Further facts, in a form that depends on the check. -/
  data : Json
  deriving DecidableEq, Repr

/-- The number of findings of each severity. -/
structure VerdictCounts where
  info : UInt32
  warn : UInt32
  error : UInt32
  deriving DecidableEq, Repr

/-- The verdict of an audit. -/
structure Verdict where
  status : VerdictStatus
  counts : VerdictCounts
  reasons : List String
  deriving DecidableEq, Repr

/-- The tool that wrote a report. -/
structure Tool where
  name : String
  version : String
  deriving DecidableEq, Repr

/-- When and where an audit ran. -/
structure Run where
  startedAt : Timestamp
  endedAt : Option Timestamp
  durationMs : Option UInt64
  /-- A label of the operating system, which qualifies titles. -/
  os : Option String
  deriving DecidableEq, Repr

/-- The summary of the files that were checked. -/
structure Summary where
  parser : String
  mode : String
  totalFiles : UInt32
  successful : UInt32
  expectedInvalid : UInt32
  /-- Files with unexpected errors, in the order in which they were first seen. -/
  failures : List RepoPath
  /-- Files of the allowlist that parsed cleanly. -/
  allowlistViolations : List RepoPath
  deriving DecidableEq, Repr

/-- The report of one audit. -/
structure Report where
  schema : String
  tool : Tool
  run : Run
  verdict : Verdict
  findings : List Finding
  data : Summary
  deriving DecidableEq, Repr

namespace Report

/-- The schema of the reports written here. -/
def schemaId : String := "parseguard.report.v1"

end Report

namespace Tool

/-- The tool that writes the reports of this library. -/
def current : Tool := ⟨"parseguard", "0.1.0"⟩

end Tool

/-! ## Fixed identifiers -/

namespace Finding

/-- The check that compares parser output with the allowlist. -/
def syntaxCheck : String := "syntax.parse"

/-- The check that the tool itself works. -/
def runtimeCheck : String := "tool.runtime"

/-- The code of an error in a file that is not on the allowlist. -/
def parseErrorCode : String := "parse_error"

/-- The code of an error in a file of the allowlist. -/
def expectedInvalidCode : String := "expected_invalid"

/-- The code of a clean file of the allowlist. -/
def allowlistViolationCode : String := "allowlist_violation"

/-- The code of a failure of the tool. -/
def runtimeErrorCode : String := "runtime_error"

/-- The code of parser output that does not follow the line grammar. -/
def unrecognizedOutputCode : String := "unrecognized_output"

end Finding

namespace Verdict

/-- The reason that some file has unexpected errors. -/
def parseErrors : String := "parse_errors"

/-- The reason that some file of the allowlist parses cleanly. -/
def allowlistStale : String := "allowlist_stale"

/-- The reason that there was nothing to check. -/
def noFiles : String := "no_files"

/-- The reason that the tool itself failed. -/
def toolError : String := "tool_error"

end Verdict

end ParseAudit
