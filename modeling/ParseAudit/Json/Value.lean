import ParseAudit.Number.Shortest
/-!
# JSON values

The values of the JSON format.  Numbers are kept as they are read: a natural number below 2^64, a
negative one down to -2^63, or a finite floating-point number.  Members of an object stay in the
order of the list; a reader that must not depend on the order sorts them (`Json.Members.insert`).
-/

namespace ParseAudit

/-- The numbers of JSON. -/
inductive JsonNumber where
  | natural (n : Nat) (bound : n < UInt64.size)
  /-- The number `-n`. -/
  | negative (n : Nat) (bound : 0 < n ∧ 2 * n ≤ UInt64.size)
  | real (x : Binary64)
  deriving DecidableEq, Repr

/-- The values of JSON. -/
inductive Json where
  | null
  | bool (b : Bool)
  | num (n : JsonNumber)
  | str (s : String)
  | arr (items : List Json)
  | obj (members : List (String × Json))
  deriving Repr, Inhabited

/-- The members of an object. -/
abbrev Json.Members := List (String × Json)

namespace JsonNumber

/-- A 32-bit number. -/
def ofUInt32 (n : UInt32) : JsonNumber :=
  .natural n.toNat (Nat.lt_trans n.toNat_lt (by decide))

/-- A 64-bit number. -/
def ofUInt64 (n : UInt64) : JsonNumber := .natural n.toNat n.toNat_lt

/-- The text of a number. -/
def text : JsonNumber → String
  | .natural n _ => Text.natural n
  | .negative n _ => "-" ++ Text.natural n
  | .real x => x.text

/-- Whether the value is a whole number. -/
def isInteger : JsonNumber → Bool
  | .natural .. => true
  | .negative .. => true
  | .real x => x.exponent ≥ 0 || x.significand % Nat.pow 2 (-x.exponent).toNat == 0

/-- Whether the value is not below zero. -/
def isNonNegative : JsonNumber → Bool
  | .natural .. => true
  | .negative .. => false
  | .real x => !x.negative || x.isZero

end JsonNumber

namespace Json

mutual

/-- Whether two values are the same, decided along their structure. -/
def decEq : (a b : Json) → Decidable (a = b)
  | .null, .null => isTrue rfl
  | .bool a, .bool b =>
    if h : a = b then isTrue (by rw [h]) else isFalse (by simpa using h)
  | .num a, .num b => if h : a = b then isTrue (by rw [h]) else isFalse (by simpa using h)
  | .str a, .str b => if h : a = b then isTrue (by rw [h]) else isFalse (by simpa using h)
  | .arr a, .arr b =>
    match decEqItems a b with
    | isTrue h => isTrue (by rw [h])
    | isFalse h => isFalse (by simpa using h)
  | .obj a, .obj b =>
    match decEqMembers a b with
    | isTrue h => isTrue (by rw [h])
    | isFalse h => isFalse (by simpa using h)
  | .null, .bool _ | .null, .num _ | .null, .str _ | .null, .arr _ | .null, .obj _
  | .bool _, .null | .bool _, .num _ | .bool _, .str _ | .bool _, .arr _ | .bool _, .obj _
  | .num _, .null | .num _, .bool _ | .num _, .str _ | .num _, .arr _ | .num _, .obj _
  | .str _, .null | .str _, .bool _ | .str _, .num _ | .str _, .arr _ | .str _, .obj _
  | .arr _, .null | .arr _, .bool _ | .arr _, .num _ | .arr _, .str _ | .arr _, .obj _
  | .obj _, .null | .obj _, .bool _ | .obj _, .num _ | .obj _, .str _ | .obj _, .arr _ =>
    isFalse (by simp)

/-- Whether two lists of values are the same. -/
def decEqItems : (a b : List Json) → Decidable (a = b)
  | [], [] => isTrue rfl
  | [], _ :: _ => isFalse (by simp)
  | _ :: _, [] => isFalse (by simp)
  | x :: xs, y :: ys =>
    match decEq x y, decEqItems xs ys with
    | isTrue h, isTrue hs => isTrue (by rw [h, hs])
    | isFalse h, _ => isFalse (by simp [h])
    | _, isFalse h => isFalse (by simp [h])

/-- Whether two lists of members are the same. -/
def decEqMembers : (a b : List (String × Json)) → Decidable (a = b)
  | [], [] => isTrue rfl
  | [], _ :: _ => isFalse (by simp)
  | _ :: _, [] => isFalse (by simp)
  | (k, x) :: xs, (l, y) :: ys =>
    if hk : k = l then
      match decEq x y, decEqMembers xs ys with
      | isTrue h, isTrue hs => isTrue (by rw [hk, h, hs])
      | isFalse h, _ => isFalse (by simp [h])
      | _, isFalse h => isFalse (by simp [h])
    else isFalse (by simp [hk])

end

instance : DecidableEq Json := decEq

/-- A small natural number. -/
def ofUInt32 (n : UInt32) : Json := .num (.ofUInt32 n)

/-- A list of texts. -/
def strings (texts : List String) : Json := .arr (texts.map .str)

namespace Members

/-- The value of a member. -/
def get? (members : Members) (key : String) : Option Json := members.lookup key

/-- Puts a member in its place among members in increasing order of their keys.  A member with the
same key is replaced. -/
def insert (key : String) (value : Json) : Members → Members
  | [] => [(key, value)]
  | (k, v) :: rest =>
    if key < k then (key, value) :: (k, v) :: rest
    else if key = k then (key, value) :: rest
    else (k, v) :: insert key value rest

end Members

/-- The member of an object. -/
def get? (value : Json) (key : String) : Option Json :=
  match value with
  | .obj members => Members.get? members key
  | _ => none

/-- The text, if the value is one. -/
def text? : Json → Option String
  | .str s => some s
  | _ => none

/-- The items, if the value is an array. -/
def items? : Json → Option (List Json)
  | .arr items => some items
  | _ => none

end Json

end ParseAudit
