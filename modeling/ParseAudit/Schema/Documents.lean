import ParseAudit.Schema.Basic
/-!
# The schemas of reports and settings

The forms of the two documents that people and other tools meet: the report of an audit and the
settings document.
-/

namespace ParseAudit

namespace SchemaDocument

/-! ## Pieces -/

/-- A text without a description. -/
def plainText : Schema := .text none false

/-- A text that may be missing. -/
def optionalText : Schema := .text none true

/-- A 32-bit number. -/
def count : Schema := .number none "uint32" false

/-- A coordinate that may be missing. -/
def coordinate : Schema := .number none "uint32" true

/-- A list of files, with a description. -/
def files (description : String) : Schema :=
  .list (some description) false true (.reference "RepoPath")

/-! ## Reports -/

/-- The form of a finding. -/
def finding : Schema := .record none [
  ("check_id", plainText),
  ("code", plainText),
  ("data", .anything (some
    "Check-specific structured payload (kept open-ended for forward compatibility).")),
  ("fingerprint", .text (some ("Stable identifier intended for dedup and trending. A hash of:\n"
    ++ "`check_id + code + canonical_path + error node label and coordinates`.")) true),
  ("help", optionalText),
  ("location", .nullableReference "Location"),
  ("message", plainText),
  ("severity", .reference "Severity")] ["severity", "check_id", "code", "message"]

/-- The form of a location. -/
def location : Schema := .record (some ("Source coordinates of a finding. Lines and columns are "
    ++ "1-based.\n\nColumns are only present for single-line regions.")) [
  ("col", coordinate),
  ("end_col", coordinate),
  ("end_line", coordinate),
  ("line", coordinate),
  ("path", .reference "RepoPath")] ["path"]

/-- The form of the summary. -/
def summary : Schema := .record (some "Parse-run summary payload for the report.") [
  ("allowlist_violations", files "Allowlisted files that parsed cleanly."),
  ("expected_invalid", count),
  ("failures", files "Files with unexpected parse errors, in first-seen order."),
  ("mode", .text (some "Invocation strategy (`batch` or `per-file`).") false),
  ("parser", .text (some "Parser executable that produced the output.") false),
  ("successful", count),
  ("total_files", count)] ["parser", "mode", "total_files", "successful", "expected_invalid"]

/-- The form of a path. -/
def repoPath : Schema := .text (some (
  "Canonical repo-relative path used as the identity key for every file.\n\n"
    ++ "Normalization rules are intentionally simple and deterministic:\n"
    ++ "- always forward slashes (`/`)\n"
    ++ "- no leading `./`, no `.` segments, no repeated separators\n"
    ++ "- relative to the base directory when the input is absolute and lives under it\n"
    ++ "- absolute paths outside the base are preserved (with forward slashes)")) false

/-- The form of the circumstances of an audit. -/
def run : Schema := .record none [
  ("duration_ms", .number none "uint64" true),
  ("ended_at", optionalText),
  ("os", .text (some "Host OS label used to qualify annotation titles (e.g. `Linux`).") true),
  ("started_at", plainText)] ["started_at"]

/-- The form of a severity. -/
def severity : Schema :=
  .choice (some "Severity is intentionally small: it maps cleanly to CI signals.")
    ["info", "warning", "error"]

/-- The form of a tool. -/
def tool : Schema :=
  .record none [("name", plainText), ("version", plainText)] ["name", "version"]

/-- The form of a verdict. -/
def verdict : Schema := .record none [
  ("counts", .reference "VerdictCounts"),
  ("reasons", .list none false true plainText),
  ("status", .reference "VerdictStatus")] ["status", "counts"]

/-- The form of the counts of a verdict. -/
def verdictCounts : Schema := .record none [
  ("error", count), ("info", count), ("warn", count)] ["info", "warn", "error"]

/-- The form of the status of a verdict. -/
def verdictStatus : Schema :=
  .choice (some "Overall run verdict. Only unexpected parse errors produce `Fail`.")
    ["pass", "warn", "fail"]

/-- The schema of reports. -/
def report : SchemaDocument where
  title := "ParseguardReport"
  body := .record (some "The report envelope written as the JSON artifact.") [
    ("data", .reference "ParseguardData"),
    ("findings", .list none false false (.reference "Finding")),
    ("run", .reference "RunMeta"),
    ("schema", .text (some "Versioned schema identifier for the envelope shape.") false),
    ("tool", .reference "ToolMeta"),
    ("verdict", .reference "Verdict")] ["schema", "tool", "run", "verdict", "findings", "data"]
  definitions := [
    ("Finding", finding), ("Location", location), ("ParseguardData", summary),
    ("RepoPath", repoPath), ("RunMeta", run), ("Severity", severity), ("ToolMeta", tool),
    ("Verdict", verdict), ("VerdictCounts", verdictCounts), ("VerdictStatus", verdictStatus)]

/-! ## Settings -/

/-- A setting that is a text. -/
def textSetting (description : String) : Schema := .text (some description) true

/-- A setting that is a list of patterns. -/
def patternsSetting (description : String) : Schema := .list (some description) false true plainText

/-- The schema of settings documents. -/
def settings : SchemaDocument where
  title := "ParseguardConfigV1"
  body := .record (some ("`parseguard.toml` schema v1.\n\nThis is a *user-facing* config model: "
      ++ "it is intentionally permissive so forward-compat is easy.")) [
    ("files", patternsSetting "Glob patterns for the files to check."),
    ("files_list", textSetting
      "Newline-delimited list of additional patterns/paths for the files to check."),
    ("files_list_kind", textSetting
      "How `files_list` entries are read: `patterns` (default) or `paths`."),
    ("invalid_files", patternsSetting "Glob patterns for files whose syntax errors are expected."),
    ("invalid_files_list", textSetting "Newline-delimited allowlist file."),
    ("invalid_files_list_kind", textSetting
      "How `invalid_files_list` entries are read: `patterns` (default) or `paths`."),
    ("max_annotations", .number (some "How many annotations to emit before truncating.")
      "uint32" true),
    ("mode", textSetting "Invocation strategy: `batch` (default) or `per-file`."),
    ("parser", textSetting "Syntax checker executable (name on `PATH` or a path)."),
    ("parser_args", .list (some
      "Arguments placed before the file paths. Defaults to `parse -q -t`.") true false plainText),
    ("schema", textSetting "Optional schema string for tooling (`parseguard.config.v1`).")] []
  definitions := []

/-- The schemas with the names of their files. -/
def published : List (String × SchemaDocument) := [
  ("parseguard.report.v1.json", report), ("parseguard.config.v1.json", settings)]

end SchemaDocument

end ParseAudit
