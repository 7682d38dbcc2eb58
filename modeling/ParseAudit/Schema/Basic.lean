import ParseAudit.Json.Writer
/-!
# JSON schemas

A schema describes the form of JSON values: texts, numbers, lists, records and choices, with
references to named definitions.  It is shown as a JSON value itself, and it tells of a value in how
many ways the value violates it.
-/

namespace ParseAudit

/-- The form of a value. -/
inductive Schema where
  | anything (description : Option String)
  | text (description : Option String) (nullable : Bool)
  /-- A text out of a few. -/
  | choice (description : Option String) (names : List String)
  /-- A whole number that is not negative. -/
  | number (description : Option String) (format : String) (nullable : Bool)
  | list (description : Option String) (nullable emptyByDefault : Bool) (items : Schema)
  | record (description : Option String) (properties : List (String × Schema))
    (required : List String)
  | reference (name : String)
  /-- The form of a definition, or `null`. -/
  | nullableReference (name : String)
  deriving Inhabited

/-- A schema with a title, and the definitions that it refers to. -/
structure SchemaDocument where
  title : String
  body : Schema
  definitions : List (String × Schema)

/-- What is wrong with a value. -/
inductive Violation where
  | wrongType (expected : String)
  | notAChoice
  | negative
  | missing (name : String)
  | noAlternative
  deriving DecidableEq, Repr

namespace Violation

/-- The wording of a violation. -/
def message : Violation → String
  | wrongType expected => "the value is not of type " ++ expected
  | notAChoice => "the value is none of the choices"
  | negative => "the value is less than the minimum of 0"
  | missing name => "the property " ++ name ++ " is required"
  | noAlternative => "the value has none of the allowed forms"

end Violation

namespace Schema

/-! ## Showing -/

/-- The type of a schema in JSON. -/
def typeJson (name : String) (nullable : Bool) : Json :=
  if nullable then .strings [name, "null"] else .str name

/-- The member for a description, if there is one. -/
def descriptionMember (description : Option String) : Json.Members :=
  (description.map fun text => ("description", Json.str text)).toList

/-- A reference to a definition in JSON. -/
def referenceJson (name : String) : Json := .obj [("$ref", .str ("#/$defs/" ++ name))]

mutual

/-- The members of a schema in JSON. -/
def members : Schema → Json.Members
  | .anything description => descriptionMember description
  | .text description nullable =>
    descriptionMember description ++ [("type", typeJson "string" nullable)]
  | .choice description names =>
    descriptionMember description ++ [("type", .str "string"), ("enum", .strings names)]
  | .number description format nullable =>
    descriptionMember description ++ [("type", typeJson "integer" nullable),
      ("format", .str format), ("minimum", .ofUInt32 0)]
  | .list description nullable emptyByDefault items =>
    descriptionMember description ++ [("type", typeJson "array" nullable)]
      ++ (if emptyByDefault then [("default", .arr [])] else [])
      ++ [("items", .obj items.members)]
  | .record description properties required =>
    descriptionMember description ++ [("type", .str "object"),
      ("properties", .obj (propertyMembers properties))]
      ++ (if required.isEmpty then [] else [("required", .strings required)])
  | .reference name => [("$ref", .str ("#/$defs/" ++ name))]
  | .nullableReference name =>
    [("anyOf", .arr [referenceJson name, .obj [("type", .str "null")]])]

/-- The properties of a record in JSON. -/
def propertyMembers : List (String × Schema) → Json.Members
  | [] => []
  | (name, schema) :: rest => (name, .obj schema.members) :: propertyMembers rest

end

/-! ## Checking -/

/-- Whether a value is absent where that is allowed. -/
def isNullFor (nullable : Bool) : Json → Bool
  | .null => nullable
  | _ => false

/-- The violation of a type. -/
def typeViolation (fits : Bool) (expected : String) : List Violation :=
  if fits then [] else [.wrongType expected]

/-- What is wrong with a number. -/
def numberViolations (nullable : Bool) : Json → List Violation
  | .num n =>
    typeViolation n.isInteger "integer" ++ (if n.isNonNegative then [] else [.negative])
  | value => typeViolation (isNullFor nullable value) "integer"

/-- What is wrong with a choice: its type, and that it is none of the names. -/
def choiceViolations (names : List String) : Json → List Violation
  | .str s => if names.contains s then [] else [.notAChoice]
  | _ => [.wrongType "string", .notAChoice]

/-- The required properties that an object lacks. -/
def missingViolations (required : List String) (members : Json.Members) : List Violation :=
  required.filterMap fun name => if (members.get? name).isSome then none else some (.missing name)

/-- What is wrong with a value.  The fuel bounds the depth of the schema. -/
def violations (definitions : List (String × Schema)) :
    Nat → Schema → Json → List Violation
  | 0, _, _ => []
  | fuel + 1, schema, value =>
    match schema with
    | .anything _ => []
    | .text _ nullable =>
      typeViolation (value.text?.isSome || isNullFor nullable value) "string"
    | .choice _ names => choiceViolations names value
    | .number _ _ nullable => numberViolations nullable value
    | .list _ nullable _ items =>
      match value with
      | .arr values => values.flatMap (violations definitions fuel items)
      | value => typeViolation (isNullFor nullable value) "array"
    | .record _ properties required =>
      match value with
      | .obj members =>
        (properties.flatMap fun (name, schema) =>
          match Json.Members.get? members name with
          | some value => violations definitions fuel schema value
          | none => []) ++ missingViolations required members
      | _ => [.wrongType "object"]
    | .reference name =>
      match definitions.lookup name with
      | some schema => violations definitions fuel schema value
      | none => []
    | .nullableReference name =>
      match value, definitions.lookup name with
      | .null, _ => []
      | value, some schema =>
        if (violations definitions fuel schema value).isEmpty then [] else [.noAlternative]
      | _, none => []

end Schema

namespace SchemaDocument

/-- The edition of the schema language. -/
def edition : String := "2020-12"

/-- The name of the schema language. -/
def dialect : String := "https:" ++ "//json-schema.org/draft/" ++ edition ++ "/schema"

/-- A schema document in JSON. -/
def toJson (d : SchemaDocument) : Json :=
  .obj ([("$schema", .str dialect), ("title", .str d.title)]
    ++ d.body.members
    ++ (if d.definitions.isEmpty then []
      else [("$defs", .obj (Schema.propertyMembers d.definitions))]))

/-- The text of a schema document. -/
def text (d : SchemaDocument) : String := d.toJson.pretty ++ "\n"

/-- The depth of forms within forms that is looked at. -/
def depth : Nat := 32

/-- What is wrong with a value. -/
def violations (d : SchemaDocument) (value : Json) : List Violation :=
  d.body.violations d.definitions depth value

end SchemaDocument

end ParseAudit
