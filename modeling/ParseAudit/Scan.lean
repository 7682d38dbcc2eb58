import ParseAudit.FileSet
import ParseAudit.Line.Grammar
/-!
# Scanning parser output

Lines of output are attributed to the files that were checked by the path in front, never by their
position: one run may print several lines for a file, and tools add lines of their own.  Of the
candidates of a line the longest path that names a checked file wins.  A checked file that no line
names is clean.
-/

namespace ParseAudit

/-- A line attributed to a checked file that does not follow the line grammar. -/
structure ScanError where
  /-- The number of the line among all lines, from one. -/
  lineNumber : Nat
  /-- The trimmed line. -/
  text : String
  cause : LineError
  deriving DecidableEq, Repr

namespace ScanError

/-- The wording of a scan error. -/
def message (e : ScanError) : String :=
  "unrecognized parser output on line " ++ Text.natural e.lineNumber ++ " (" ++ e.cause.message
    ++ "): `" ++ e.text ++ "`"

end ScanError

/-- What was read from the output of one run. -/
structure ScanOutput where
  /-- Records in output order, then the clean records that no line stands behind. -/
  records : List Record
  /-- The trimmed lines that name no checked file, blank lines apart. -/
  unmatched : List String
  deriving DecidableEq, Repr

namespace ScanOutput

/-- Nothing read. -/
def nil : ScanOutput := ⟨[], []⟩

/-- What was read from one output and then from another. -/
def append (a b : ScanOutput) : ScanOutput :=
  ⟨a.records ++ b.records, a.unmatched ++ b.unmatched⟩

instance : Append ScanOutput := ⟨append⟩

end ScanOutput

namespace Scan

/-- The longest candidate whose path names a checked file. -/
def attribution (isTarget : RepoPath → Bool) (base : String) (line : List Char) :
    Option (List Char × List Char) :=
  let cut := (Line.cuts line).find? fun cut => isTarget (.normalize (String.ofList cut.path) base)
  cut.map fun cut => (cut.path, cut.rest)

/-- The first of the candidates whose path names a checked file is the one that counts. -/
theorem attribution_eq_find? (isTarget : RepoPath → Bool) (base : String) (line : List Char) :
    attribution isTarget base line =
      (Line.candidates line).find? fun (path, _) =>
        isTarget (.normalize (String.ofList path) base) := by
  rw [attribution, Line.candidates, List.find?_map]
  rfl

/-- What one line contributes; a blank line contributes nothing. -/
def scanLine (isTarget : RepoPath → Bool) (base : String) (line : List Char) :
    Except LineError ScanOutput :=
  let text := Chars.trim line
  if text.isEmpty then .ok .nil
  else match attribution isTarget base text with
    | none => .ok ⟨[], [String.ofList text]⟩
    | some (path, rest) => do
      let record ← Line.recordOfParts path rest text base
      return ⟨[record], []⟩

/-- What the lines contribute, the first of them having the given number. -/
def scanLines (isTarget : RepoPath → Bool) (base : String) :
    Nat → List (List Char) → Except ScanError ScanOutput
  | _, [] => .ok .nil
  | number, line :: lines =>
    match scanLine isTarget base line with
    | .error cause => .error ⟨number, String.ofList (Chars.trim line), cause⟩
    | .ok first => do
      let others ← scanLines isTarget base (number + 1) lines
      return first ++ others

/-- What the lines of an output contribute. -/
def scanOutput (isTarget : RepoPath → Bool) (base : String) (stdout : String) :
    Except ScanError ScanOutput :=
  scanLines isTarget base 1 (Chars.lines stdout.toList)

/-- The output of one run over every file in `targets`.  Files without a line are clean. -/
def batch (stdout : String) (targets : FileSet) (base : String) : Except ScanError ScanOutput := do
  let out ← scanOutput targets.contains base stdout
  -- The silent files keep the order of the set.
  let seen := out.records.map Record.file
  let silent := targets.toList.filter fun t => !seen.contains t
  return { out with records := out.records ++ silent.map .clean }

/-- The output of one run over a single file, which is clean if no line names it. -/
def single (stdout : String) (file : RepoPath) (base : String) : Except ScanError ScanOutput := do
  let out ← scanOutput (· == file) base stdout
  return if out.records.isEmpty then { out with records := [.clean file] } else out

end Scan

end ParseAudit
