import ParseAudit.Failure
import ParseAudit.Report.Codec
/-!
# Reading a report

A text is read as a report in three steps, each with a failure of its own: it is JSON, it names the
schema of the reports of this library, and it has the form of a report.
-/

namespace ParseAudit.Report

/-- The schema that a document names, or nothing if it names none. -/
def schemaOf (document : Json) : String := ((document.get? "schema").bind Json.text?).getD ""

/-- Reads a report. -/
def read (text : String) : Except Failure Report :=
  match Json.parse? text with
  | none => .error ⟨["parse report json"], .json⟩
  | some document =>
    if schemaOf document = schemaId then
      match ofJson? document with
      | some report => .ok report
      | none => .error ⟨["parse parseguard report"], .json⟩
    else .error (.ofText ("unknown report schema: " ++ schemaOf document))

end ParseAudit.Report
