import ParseAudit.Json.Value
import ParseAudit.Text.Lines
/-!
# Golden reports

A report is kept for comparison in its *golden* form, in which everything that changes from run to
run is replaced by a placeholder: moments and durations wherever they stand, and the version of the
tool in the envelope of a report.
-/

namespace ParseAudit.Golden

/-- The placeholder for a moment. -/
def timestamp : Json := .str "__TIMESTAMP__"

/-- The placeholder for a version. -/
def version : Json := .str "__VERSION__"

/-- The placeholder for a duration. -/
def duration : Json := .ofUInt32 0

/-- The placeholder for the value of a member, if it changes from run to run. -/
def placeholder? (key : String) : Option Json :=
  if key = "started_at" ∨ key = "ended_at" then some timestamp
  else if key = "duration_ms" then some duration
  else none

mutual

/-- Replaces moments and durations wherever they stand. -/
def hideTimes : Json → Json
  | .arr items => .arr (hideTimesItems items)
  | .obj members => .obj (hideTimesMembers members)
  | value => value

/-- Replaces moments and durations in the items of an array. -/
def hideTimesItems : List Json → List Json
  | [] => []
  | item :: rest => hideTimes item :: hideTimesItems rest

/-- Replaces moments and durations in the members of an object. -/
def hideTimesMembers : List (String × Json) → List (String × Json)
  | [] => []
  | (key, value) :: rest =>
    (key, (placeholder? key).getD (hideTimes value)) :: hideTimesMembers rest

end

/-- The members by which the envelope of a report is known. -/
def envelopeKeys : List String := ["schema", "tool", "run", "verdict", "findings"]

/-- Whether an object looks like the envelope of a report. -/
def isEnvelope (members : Json.Members) : Bool :=
  envelopeKeys.all fun key => (members.get? key).isSome

/-- Replaces the version of a tool, if there is one. -/
def hideVersion : Json → Json
  | .obj members =>
    .obj (members.map fun (key, value) => (key, if key = "version" then version else value))
  | value => value

/-- Replaces the version of the tool in the envelope of a report. -/
def hideToolVersion : Json → Json
  | .obj members =>
    if isEnvelope members then
      .obj (members.map fun (key, value) =>
        (key, if key = "tool" then hideVersion value else value))
    else .obj members
  | value => value

/-- The golden form of a value. -/
def normalize (value : Json) : Json := hideTimes (hideToolVersion value)

mutual

/-- Replaces a text in all texts of a value. -/
def replaceText (old new : String) : Json → Json
  | .str s => .str (Text.replaceAll old new s)
  | .arr items => .arr (replaceTextItems old new items)
  | .obj members => .obj (replaceTextMembers old new members)
  | value => value

/-- Replaces a text in all texts of the items of an array. -/
def replaceTextItems (old new : String) : List Json → List Json
  | [] => []
  | item :: rest => replaceText old new item :: replaceTextItems old new rest

/-- Replaces a text in all texts of the members of an object. -/
def replaceTextMembers (old new : String) : List (String × Json) → List (String × Json)
  | [] => []
  | (key, value) :: rest => (key, replaceText old new value) :: replaceTextMembers old new rest

end

/-- Replaces the path of the workspace, wherever it stands in a text, by a placeholder. -/
def hideWorkspace (root : String) (value : Json) : Json := replaceText root "__WORKSPACE__" value

end ParseAudit.Golden
