import ParseAudit.Report.Golden
import ParseAudit.Report.Reading
import ParseAudit.Text.Octets
/-!
# Hygiene of golden reports

Beyond its form, a golden report must name the right schema, use clean paths and plain tokens, and
be in golden form already.
-/

namespace ParseAudit.Hygiene

/-- Whether a character may start a token. -/
def startsToken (c : Char) : Bool := 'a' ≤ c && c ≤ 'z'

/-- Whether a character may stand in a token. -/
def isTokenChar (c : Char) : Bool := startsToken c || ('0' ≤ c && c ≤ '9') || c == '_'

/-- Whether a text is a token: a small letter, then small letters, digits and `_`. -/
def isToken (s : String) : Bool :=
  match s.toList with
  | [] => false
  | c :: cs => startsToken c && cs.all isTokenChar

/-- Whether a path is relative, stays in its tree, and uses forward slashes only. -/
def isCleanPath (path : String) : Bool :=
  let chars := path.toList
  chars.head? != some '/' && !(chars.splitOnP (· == '/')).contains ['.', '.']
    && !chars.contains '\\' && (Octets.ofText path)[1]? != some 0x3A

/-- The items of a member, if it is an array. -/
def itemsOf (value : Json) (key : String) : List Json :=
  ((value.get? key).bind Json.items?).getD []

/-- The text of a member, if it is one. -/
def textOf? (value : Json) (key : String) : Option String := (value.get? key).bind Json.text?

/-- What is wrong with a finding. -/
def findingErrors (name : String) (finding : Json) (index : Nat) : List String :=
  let place := name ++ ": findings[" ++ Text.natural index ++ "]"
  let path := (finding.get? "location").bind fun l => textOf? l "path"
  (path.toList.filter fun path => !isCleanPath path).map (fun path =>
      place ++ ".location.path '" ++ path ++ "' is not clean")
    ++ ((textOf? finding "code").toList.filter fun code => !isToken code).map fun code =>
      place ++ ".code '" ++ code ++ "' is not a valid token"

/-- What is wrong with a reason of the verdict. -/
def reasonErrors (name : String) (reason : Json) (index : Nat) : List String :=
  (reason.text?.toList.filter fun s => !isToken s).map fun s =>
    name ++ ": verdict.reasons[" ++ Text.natural index ++ "] '" ++ s ++ "' is not a valid token"

/-- What is wrong with a golden report of the given name. -/
def errors (name : String) (value : Json) : List String :=
  let reasons := ((value.get? "verdict").map (itemsOf · "reasons")).getD []
  (if textOf? value "schema" = some Report.schemaId then []
    else [name ++ ": schema must be `" ++ Report.schemaId ++ "`"])
    ++ ((itemsOf value "findings").zipIdx.flatMap fun (f, i) => findingErrors name f i)
    ++ (reasons.zipIdx.flatMap fun (r, i) => reasonErrors name r i)
    ++ (if Golden.normalize value = value then []
      else [name ++ ": timestamps or tool version are not normalized"])

end ParseAudit.Hygiene
