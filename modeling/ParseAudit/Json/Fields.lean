import ParseAudit.Json.Value
/-!
# Fields of a record in JSON

A record is read from an object by the names of its fields, or from an array by their order.  Names
that are not known are skipped; an array must not be longer than the record.  A field may be
*required*, *nullable* (absent from an object like `null`, but present in an array) or *optional*
(absent from both).
-/

namespace ParseAudit.Json

/-- Where the fields of a record are found. -/
inductive Fields where
  | named (members : Members)
  | listed (items : List Json)

namespace Fields

/-- The fields of a record that has `count` of them. -/
def of? (count : Nat) : Json → Option Fields
  | .obj members => some (.named members)
  | .arr items => if items.length ≤ count then some (.listed items) else none
  | _ => none

/-- The value of the field with the given place and name. -/
def value? (fields : Fields) (index : Nat) (name : String) : Option Json :=
  match fields with
  | named members => Members.get? members name
  | listed items => items[index]?

/-- A field that must be there. -/
def required {α : Type} (fields : Fields) (index : Nat) (name : String)
    (read? : Json → Option α) : Option α :=
  (fields.value? index name).bind read?

/-- Reads `null` as nothing. -/
def orNull {α : Type} (read? : Json → Option α) : Json → Option (Option α)
  | .null => some none
  | value => (read? value).map some

/-- A field that may be `null`, and may be absent from an object. -/
def nullable {α : Type} (fields : Fields) (index : Nat) (name : String)
    (read? : Json → Option α) : Option (Option α) :=
  match fields.value? index name, fields with
  | some value, _ => orNull read? value
  | none, named _ => some none
  | none, listed _ => none

/-- A field that may be absent. -/
def optional {α : Type} (fields : Fields) (index : Nat) (name : String) (absent : α)
    (read? : Json → Option α) : Option α :=
  match fields.value? index name with
  | some value => read? value
  | none => some absent

end Fields

/-- A 32-bit number. -/
def uint32? : Json → Option UInt32
  | .num (.natural n _) => if n < UInt32.size then some (UInt32.ofNat n) else none
  | _ => none

/-- A 64-bit number. -/
def uint64? : Json → Option UInt64
  | .num (.natural n _) => some (UInt64.ofNat n)
  | _ => none

/-- A list of values that are all read in the same way. -/
def list? {α : Type} (read? : Json → Option α) : Json → Option (List α)
  | .arr items => items.mapM read?
  | _ => none

/-- The name of a case without contents: a text, or an object with that name for `null`. -/
def caseName? : Json → Option String
  | .str name => some name
  | .obj [(name, .null)] => some name
  | _ => none

end ParseAudit.Json
