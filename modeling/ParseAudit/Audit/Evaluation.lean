import ParseAudit.Audit.Outcome
import ParseAudit.Report.Basic
import ParseAudit.Sha256
/-!
# Evaluating an audit

The records of an audit against the allowlist: every error node becomes a finding, a clean file of
the allowlist becomes a warning, and the verdict hangs on the tally alone.
-/

namespace ParseAudit

/-- The number of findings of each severity. -/
structure SeverityCounts where
  info : Nat
  warning : Nat
  error : Nat
  deriving DecidableEq, Repr

namespace SeverityCounts

/-- Counts the findings. -/
def ofFindings (findings : List Finding) : SeverityCounts where
  info := findings.countP (·.severity == .info)
  warning := findings.countP (·.severity == .warning)
  error := findings.countP (·.severity == .error)

end SeverityCounts

/-- What the records of an audit amount to. -/
structure Evaluation where
  status : VerdictStatus
  reasons : List String
  findings : List Finding
  tally : Tally
  counts : SeverityCounts
  deriving DecidableEq, Repr

namespace Finding

/-- The text whose digest identifies a finding: check, code, path and node, joined by `|`. -/
def identity (checkId code path node : String) : String :=
  "|".intercalate [checkId, code, path, node]

/-- The digest that identifies a finding. -/
def fingerprintOf (checkId code path node : String) : String :=
  Sha256.hex (identity checkId code path node)

/-- The node that a record is identified by: its region, or its line if it has none. -/
def nodeOf (record : Record) : String :=
  match record.region with
  | some region => region.identity
  | none => record.raw

/-- The label of a record's error node. -/
def labelOf (record : Record) : Json :=
  match record.region with
  | some region => .str region.label
  | none => .null

/-- What to say of a record's error node. -/
def messageOf (title : String) (record : Record) : String :=
  match record.region with
  | some region => title ++ ": " ++ region.label ++ " node at " ++ region.span
  | none => title

/-- The finding for an error node. -/
def ofErrorNode (severity : Severity) (code title : String) (record : Record) : Finding where
  severity := severity
  checkId := syntaxCheck
  code := code
  message := messageOf title record
  location := some ((record.region.map (·.location record.file)).getD (.ofFile record.file))
  help := none
  fingerprint := some (fingerprintOf syntaxCheck code record.file.text (nodeOf record))
  data := .obj [("label", labelOf record), ("raw", .str record.raw)]

/-- The finding for an error in a file that is not on the allowlist. -/
def parseError : Record → Finding := ofErrorNode .error parseErrorCode "Parsing error"

/-- The finding for an error in a file of the allowlist. -/
def expectedInvalid : Record → Finding :=
  ofErrorNode .warning expectedInvalidCode "Invalid syntax (expected)"

/-- The finding for a clean file of the allowlist. -/
def allowlistViolation (file : RepoPath) : Finding where
  severity := .warning
  checkId := syntaxCheck
  code := allowlistViolationCode
  message := "file is listed as invalid but parsed without errors"
  location := some (.ofFile file)
  help := some "remove it from the invalid-files allowlist"
  fingerprint := some (fingerprintOf syntaxCheck allowlistViolationCode file.text "")
  data := .null

/-- The findings for one file. -/
def ofGroup (invalid : FileSet) (group : FileGroup) : List Finding :=
  match group.outcome invalid with
  | .success => []
  | .unexpectedFailure => group.errors.map parseError
  | .expectedInvalid => group.errors.map expectedInvalid
  | .allowlistViolation => [allowlistViolation group.file]

end Finding

namespace Tally

/-- Why the verdict is what it is. -/
def reasons (t : Tally) : List String :=
  (if t.failures.isEmpty then [] else [Verdict.parseErrors])
    ++ (if t.allowlistViolations.isEmpty then [] else [Verdict.allowlistStale])
    ++ (if t.total = 0 then [Verdict.noFiles] else [])

/-- The verdict: a failure fails, a clean file of the allowlist warns. -/
def status (t : Tally) : VerdictStatus :=
  if !t.passed then .fail
  else if !t.allowlistViolations.isEmpty then .warn
  else .pass

end Tally

namespace Evaluation

/-- The records of an audit against its allowlist. -/
def ofRecords (records : List Record) (invalid : FileSet) : Evaluation :=
  let groups := FileGroup.ofRecords records
  let tally := Tally.ofGroups groups invalid
  let findings := groups.flatMap (Finding.ofGroup invalid)
  { status := tally.status
    reasons := tally.reasons
    findings := findings
    tally := tally
    counts := .ofFindings findings }

end Evaluation

end ParseAudit
