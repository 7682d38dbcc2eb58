import ParseAudit.Render.View
/-!
# Annotations

A finding is shown to the host of a build as one line, a *workflow command*:

    ::level file=…,line=…,endLine=…,col=…,endColumn=…,title=…::message

What would end a line or a field is escaped, so that no content of a finding can break its line.
When there are more findings than may be shown, the graver ones go first.
-/

namespace ParseAudit

namespace WorkflowCommand

/-! ## Escaping -/

/-- A character as it stands in a message. -/
def escapeDataChar (c : Char) : List Char :=
  if c == '%' then ['%', '2', '5']
  else if c == '\r' then ['%', '0', 'D']
  else if c == '\n' then ['%', '0', 'A']
  else [c]

/-- A character as it stands in the value of a field. -/
def escapePropertyChar (c : Char) : List Char :=
  if c == ':' then ['%', '3', 'A']
  else if c == ',' then ['%', '2', 'C']
  else escapeDataChar c

/-- A text as it stands in a message. -/
def escapeData (s : String) : String := String.ofList (s.toList.flatMap escapeDataChar)

/-- A text as it stands in the value of a field. -/
def escapeProperty (s : String) : String := String.ofList (s.toList.flatMap escapePropertyChar)

/-! ## Groups -/

/-- Opens a group of lines that can be folded. -/
def groupStart (title : String) : String := "::group::" ++ escapeData title

/-- Closes the group. -/
def groupEnd : String := "::endgroup::"

/-! ## Lines -/

/-- The level of a severity. -/
def level : Severity → String
  | .error => "error"
  | .warning => "warning"
  | .info => "notice"

/-- The title for the code of a finding. -/
def title (code : String) : String :=
  if code = Finding.parseErrorCode then "Parsing error"
  else if code = Finding.expectedInvalidCode then "Invalid syntax"
  else if code = Finding.allowlistViolationCode then "Unexpectedly valid syntax"
  else if code = Finding.unrecognizedOutputCode then "Unrecognized parser output"
  else "parseguard"

/-- A field of an annotation. -/
def field (name value : String) : String := name ++ "=" ++ value

/-- A field with a number, if there is one. -/
def numberField (name : String) (n : Option UInt32) : List String :=
  (n.map fun n => field name (coordinateText n)).toList

/-- The fields for a location. -/
def locationFields (l : Location) : List String :=
  field "file" (escapeProperty l.path.text) :: numberField "line" l.line
    ++ numberField "endLine" l.endLine ++ numberField "col" l.column
    ++ numberField "endColumn" l.endColumn

/-- The fields of the annotation for a finding. -/
def fields (os : Option String) (f : FindingView) : List String :=
  (f.location.map locationFields).getD []
    ++ [field "title" (escapeProperty (qualifiedTitle os (title f.code)))]

/-- The annotation for a finding. -/
def line (os : Option String) (f : FindingView) : String :=
  "::" ++ level f.severity ++ " " ++ ",".intercalate (fields os f) ++ "::" ++ escapeData f.message

end WorkflowCommand

namespace ReportView

/-- The annotations for all findings, in the order of the report. -/
def annotations (r : ReportView) : List String := r.findings.map (WorkflowCommand.line r.os)

/-- The findings, stably sorted by falling weight. -/
def gravestFirst (findings : List FindingView) : List FindingView :=
  findings.mergeSort fun f g => g.severity.weight ≤ f.severity.weight

/-- The annotations for as many findings as may be shown, the graver ones first. -/
def cappedAnnotations (r : ReportView) (max : Nat) : List String :=
  ((gravestFirst r.findings).map (WorkflowCommand.line r.os)).take max

end ReportView

end ParseAudit
