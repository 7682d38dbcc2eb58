import ParseAudit.Json.Fields
import ParseAudit.Json.Reader
import ParseAudit.Json.Writer
import ParseAudit.Report.Basic
/-!
# Reports in JSON

A report is written with its fields in the order of its definition; what is absent is left out.
Reading takes any JSON value of that shape and skips members that it does not know.
-/

namespace ParseAudit

/-- Members of which some are absent. -/
def presentMembers (members : List (String × Option Json)) : Json :=
  .obj (members.filterMap fun (key, value) => value.map (key, ·))

namespace RepoPath

/-- A path in JSON is its text. -/
def toJson (p : RepoPath) : Json := .str p.text

/-- Reads a path. -/
def ofJson? (v : Json) : Option RepoPath := v.text?.map .mk

end RepoPath

namespace Severity

/-- The name of a severity. -/
def name : Severity → String
  | info => "info"
  | warning => "warning"
  | error => "error"

/-- The severity with a name. -/
def ofName? (name : String) : Option Severity :=
  [info, warning, error].find? (·.name == name)

end Severity

namespace VerdictStatus

/-- The name of a verdict. -/
def name : VerdictStatus → String
  | pass => "pass"
  | warn => "warn"
  | fail => "fail"

/-- The verdict with a name. -/
def ofName? (name : String) : Option VerdictStatus :=
  [pass, warn, fail].find? (·.name == name)

end VerdictStatus

namespace Location

/-- A location in JSON. -/
def toJson (l : Location) : Json := presentMembers [
  ("path", some l.path.toJson),
  ("line", l.line.map Json.ofUInt32),
  ("col", l.column.map Json.ofUInt32),
  ("end_line", l.endLine.map Json.ofUInt32),
  ("end_col", l.endColumn.map Json.ofUInt32)]

/-- Reads a location. -/
def ofJson? (v : Json) : Option Location := do
  let fields ← Json.Fields.of? 5 v
  let path ← fields.required 0 "path" RepoPath.ofJson?
  let line ← fields.nullable 1 "line" Json.uint32?
  let column ← fields.nullable 2 "col" Json.uint32?
  let endLine ← fields.optional 3 "end_line" none (Json.Fields.orNull Json.uint32?)
  let endColumn ← fields.optional 4 "end_col" none (Json.Fields.orNull Json.uint32?)
  return ⟨path, line, column, endLine, endColumn⟩

end Location

namespace Finding

/-- A finding in JSON. -/
def toJson (f : Finding) : Json := presentMembers [
  ("severity", some (.str f.severity.name)),
  ("check_id", some (.str f.checkId)),
  ("code", some (.str f.code)),
  ("message", some (.str f.message)),
  ("location", f.location.map Location.toJson),
  ("help", f.help.map .str),
  ("fingerprint", f.fingerprint.map .str),
  ("data", if f.data = .null then none else some f.data)]

/-- Reads a finding. -/
def ofJson? (v : Json) : Option Finding := do
  let fields ← Json.Fields.of? 8 v
  let severity ← fields.required 0 "severity" fun v => v.caseName?.bind Severity.ofName?
  let checkId ← fields.required 1 "check_id" Json.text?
  let code ← fields.required 2 "code" Json.text?
  let message ← fields.required 3 "message" Json.text?
  let location ← fields.nullable 4 "location" Location.ofJson?
  let help ← fields.nullable 5 "help" Json.text?
  let fingerprint ← fields.nullable 6 "fingerprint" Json.text?
  let data ← fields.optional 7 "data" .null some
  return ⟨severity, checkId, code, message, location, help, fingerprint, data⟩

end Finding

namespace VerdictCounts

/-- The counts in JSON. -/
def toJson (c : VerdictCounts) : Json := .obj [
  ("info", .ofUInt32 c.info), ("warn", .ofUInt32 c.warn), ("error", .ofUInt32 c.error)]

/-- Reads the counts. -/
def ofJson? (v : Json) : Option VerdictCounts := do
  let fields ← Json.Fields.of? 3 v
  let info ← fields.required 0 "info" Json.uint32?
  let warn ← fields.required 1 "warn" Json.uint32?
  let error ← fields.required 2 "error" Json.uint32?
  return ⟨info, warn, error⟩

end VerdictCounts

namespace Verdict

/-- A verdict in JSON. -/
def toJson (v : Verdict) : Json := .obj [
  ("status", .str v.status.name), ("counts", v.counts.toJson), ("reasons", .strings v.reasons)]

/-- Reads a verdict. -/
def ofJson? (v : Json) : Option Verdict := do
  let fields ← Json.Fields.of? 3 v
  let status ← fields.required 0 "status" fun v => v.caseName?.bind VerdictStatus.ofName?
  let counts ← fields.required 1 "counts" VerdictCounts.ofJson?
  let reasons ← fields.optional 2 "reasons" [] (Json.list? Json.text?)
  return ⟨status, counts, reasons⟩

end Verdict

namespace Tool

/-- A tool in JSON. -/
def toJson (t : Tool) : Json := .obj [("name", .str t.name), ("version", .str t.version)]

/-- Reads a tool. -/
def ofJson? (v : Json) : Option Tool := do
  let fields ← Json.Fields.of? 2 v
  let name ← fields.required 0 "name" Json.text?
  let version ← fields.required 1 "version" Json.text?
  return ⟨name, version⟩

end Tool

namespace Run

/-- The circumstances of an audit in JSON. -/
def toJson (r : Run) : Json := presentMembers [
  ("started_at", some (.str r.startedAt.text)),
  ("ended_at", r.endedAt.map (.str ·.text)),
  ("duration_ms", r.durationMs.map (.num <| .ofUInt64 ·)),
  ("os", r.os.map .str)]

/-- Reads a timestamp. -/
def timestamp? (v : Json) : Option Timestamp := v.text?.bind Timestamp.parse?

/-- Reads the circumstances of an audit. -/
def ofJson? (v : Json) : Option Run := do
  let fields ← Json.Fields.of? 4 v
  let startedAt ← fields.required 0 "started_at" timestamp?
  let endedAt ← fields.optional 1 "ended_at" none (Json.Fields.orNull timestamp?)
  let durationMs ← fields.optional 2 "duration_ms" none (Json.Fields.orNull Json.uint64?)
  let os ← fields.optional 3 "os" none (Json.Fields.orNull Json.text?)
  return ⟨startedAt, endedAt, durationMs, os⟩

end Run

namespace Summary

/-- The summary in JSON. -/
def toJson (s : Summary) : Json := .obj [
  ("parser", .str s.parser),
  ("mode", .str s.mode),
  ("total_files", .ofUInt32 s.totalFiles),
  ("successful", .ofUInt32 s.successful),
  ("expected_invalid", .ofUInt32 s.expectedInvalid),
  ("failures", .arr (s.failures.map RepoPath.toJson)),
  ("allowlist_violations", .arr (s.allowlistViolations.map RepoPath.toJson))]

/-- Reads the summary. -/
def ofJson? (v : Json) : Option Summary := do
  let fields ← Json.Fields.of? 7 v
  let parser ← fields.required 0 "parser" Json.text?
  let mode ← fields.required 1 "mode" Json.text?
  let totalFiles ← fields.required 2 "total_files" Json.uint32?
  let successful ← fields.required 3 "successful" Json.uint32?
  let expectedInvalid ← fields.required 4 "expected_invalid" Json.uint32?
  let failures ← fields.optional 5 "failures" [] (Json.list? RepoPath.ofJson?)
  let violations ← fields.optional 6 "allowlist_violations" [] (Json.list? RepoPath.ofJson?)
  return ⟨parser, mode, totalFiles, successful, expectedInvalid, failures, violations⟩

end Summary

namespace Report

/-- A report in JSON. -/
def toJson (r : Report) : Json := .obj [
  ("schema", .str r.schema),
  ("tool", r.tool.toJson),
  ("run", r.run.toJson),
  ("verdict", r.verdict.toJson),
  ("findings", .arr (r.findings.map Finding.toJson)),
  ("data", r.data.toJson)]

/-- Reads a report. -/
def ofJson? (v : Json) : Option Report := do
  let fields ← Json.Fields.of? 6 v
  let schema ← fields.required 0 "schema" Json.text?
  let tool ← fields.required 1 "tool" Tool.ofJson?
  let run ← fields.required 2 "run" Run.ofJson?
  let verdict ← fields.required 3 "verdict" Verdict.ofJson?
  let findings ← fields.required 4 "findings" (Json.list? Finding.ofJson?)
  let data ← fields.required 5 "data" Summary.ofJson?
  return ⟨schema, tool, run, verdict, findings, data⟩

/-- The text of a report. -/
def serialize (r : Report) : String := r.toJson.pretty

end Report

end ParseAudit
