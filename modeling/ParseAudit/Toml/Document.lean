import ParseAudit.Toml.Value
/-!
# TOML documents

A document is a list of statements: pairs of key and value, headers `[a.b]` that open a table, and
headers `[[a.b]]` that open one more table of an array.  The statements build one tree of tables,
in which nothing is defined twice: each table of the tree remembers how it came about.
-/

namespace ParseAudit.Toml

/-- How a table came about. -/
inductive Origin where
  /-- On the way to a deeper table of a header. -/
  | onTheWay
  /-- By a header of its own, or as the value of a key. -/
  | header
  /-- On the way of a key with points, whether it was there before or not. -/
  | dotted
  deriving DecidableEq, Repr

/-- A node of the tree while it is built. -/
inductive Node where
  /-- A value, to which nothing can be added. -/
  | value (v : Toml)
  | table (origin : Origin) (entries : List (String × Node))
  /-- The tables of an array, latest first. -/
  | tables (items : List (List (String × Node)))

/-- The entries of a table while it is built. -/
abbrev Entries := List (String × Node)

namespace Entries

/-- Replaces the node of a key, or adds it at the end. -/
def set (entries : Entries) (key : String) (node : Node) : Entries :=
  match entries with
  | [] => [(key, node)]
  | (k, n) :: rest => if k = key then (k, node) :: rest else (k, n) :: set rest key node

/-- Changes the table at the end of a path, and makes the tables on the way.  Keys with points must
not lead into a table that a header made. -/
def descend (byKey : Bool) (entries : Entries) (path : List String) (origin : Origin)
    (change : Origin → Entries → Option Entries) : Option Entries :=
  match path with
  | [] => change origin entries
  | key :: path =>
    let fresh := if byKey then Origin.dotted else Origin.onTheWay
    match entries.lookup key with
    | none => do
      let inner ← descend byKey [] path fresh change
      return set entries key (.table fresh inner)
    | some (.table known inner) =>
      if byKey && known == .header then none
      else do
        -- A key with points takes the tables that it leads through for its own.
        let known := if byKey then .dotted else known
        let inner ← descend byKey inner path known change
        return set entries key (.table known inner)
    -- Within an array of tables the path goes on in the latest one.
    | some (.tables (last :: others)) => do
      let last ← descend byKey last path .header change
      return set entries key (.tables (last :: others))
    | some _ => none

/-- Adds a value under a key of one or more parts. -/
def addPair (entries : Entries) (key : List String) (value : Toml) : Option Entries :=
  let path := key.dropLast
  key.getLast?.bind fun name =>
    descend true entries path .header fun origin inner =>
      -- A key with points adds to no table with a header of its own, be it the last of an array.
      if origin == .header && !path.isEmpty then none
      else if (inner.lookup name).isSome then none
      else some (set inner name (.value value))

/-- Opens the table of a header: it is new, or was only on the way so far. -/
def openTable (entries : Entries) (key : List String) : Option Entries :=
  key.getLast?.bind fun name =>
    descend false entries key.dropLast .header fun _ inner =>
      match inner.lookup name with
      | none => some (set inner name (.table .header []))
      -- A table that was only on the way to others may still get its own header.
      | some (.table .onTheWay known) => some (set inner name (.table .header known))
      | some _ => none

/-- Opens one more table of an array of tables. -/
def openNext (entries : Entries) (key : List String) : Option Entries :=
  key.getLast?.bind fun name =>
    descend false entries key.dropLast .header fun _ inner =>
      match inner.lookup name with
      | none => some (set inner name (.tables [[]]))
      | some (.tables items) => some (set inner name (.tables ([] :: items)))
      | some _ => none

/-- Changes the table that the last header opened. -/
def inCurrent (entries : Entries) (path : List String) (change : Entries → Option Entries) :
    Option Entries :=
  descend false entries path .header fun _ inner => change inner

end Entries

namespace Node

mutual

/-- The value of a finished node. -/
def toToml : Node → Toml
  | .value v => v
  | .table _ entries => .table (entriesToToml entries)
  | .tables items => .array (itemsToToml items).reverse

/-- The values of finished entries. -/
def entriesToToml : List (String × Node) → List (String × Toml)
  | [] => []
  | (key, node) :: rest => (key, node.toToml) :: entriesToToml rest

/-- The values of finished tables. -/
def itemsToToml : List (List (String × Node)) → List Toml
  | [] => []
  | entries :: rest => .table (entriesToToml entries) :: itemsToToml rest

end

end Node

/-! ## Containers -/

mutual

/-- Reads a value. -/
def value? (fuel depth : Nat) (s : List Char) : Option (Toml × List Char) :=
  match fuel with
  | 0 => none
  | fuel + 1 =>
    match s with
    | '"' :: _ => (text? s).map fun (t, rest) => (.text (String.ofList t), rest)
    | '\'' :: _ => (text? s).map fun (t, rest) => (.text (String.ofList t), rest)
    | '[' :: cs =>
      match depth with
      | 0 => none
      | depth + 1 => (items? fuel depth cs).map fun (items, rest) => (.array items, rest)
    | '{' :: cs =>
      match depth with
      | 0 => none
      | depth + 1 =>
        (pairs? fuel depth [] cs).map fun (entries, rest) =>
          (.table (Node.entriesToToml entries), rest)
    | s => scalar? s

/-- Reads the items of an array up to its end. -/
def items? (fuel depth : Nat) (s : List Char) : Option (List Toml × List Char) :=
  match fuel with
  | 0 => none
  | fuel + 1 =>
    match skipLines s with
    | ']' :: rest => some ([], rest)
    | s => do
      let (first, rest) ← value? fuel depth s
      match skipLines rest with
      | ',' :: rest =>
        let (others, rest) ← items? fuel depth rest
        return (first :: others, rest)
      | ']' :: rest => return ([first], rest)
      | _ => none

/-- Reads the pairs of an inline table up to its end, and adds them to those already read. -/
def pairs? (fuel depth : Nat) (known : Entries) (s : List Char) :
    Option (Entries × List Char) :=
  match fuel with
  | 0 => none
  | fuel + 1 =>
    match skipLines s with
    | '}' :: rest => some (known, rest)
    | s => do
      let (key, rest) ← key? s
      match skipLines rest with
      | '=' :: rest =>
        let (v, rest) ← value? fuel depth (skipLines rest)
        let known ← Entries.addPair known key v
        match skipLines rest with
        | ',' :: rest => pairs? fuel depth known rest
        | '}' :: rest => return (known, rest)
        | _ => none
      | _ => none

end

/-! ## Statements -/

/-- One statement of a document. -/
inductive Statement where
  | pair (key : List String) (value : Toml)
  | openTable (key : List String)
  | openNext (key : List String)

/-- Reads a statement. -/
def statement? (s : List Char) : Option (Statement × List Char) :=
  match s with
  | '[' :: '[' :: cs => do
    let (key, rest) ← key? cs
    match rest with
    | ']' :: ']' :: rest => return (.openNext key, rest)
    | _ => none
  | '[' :: cs => do
    let (key, rest) ← key? cs
    match rest with
    | ']' :: rest => return (.openTable key, rest)
    | _ => none
  | s => do
    let (key, rest) ← key? s
    match rest with
    | '=' :: rest =>
      let (v, rest) ← value? (2 * rest.length + 2) maxDepth (skipSpace rest)
      return (.pair key v, rest)
    | _ => none

/-- Reads the statements of a document, one to a line. -/
def statements? : Nat → List Char → Option (List Statement)
  | 0, _ => none
  | fuel + 1, s =>
    match skipLines s with
    | [] => some []
    | s => do
      let (first, rest) ← statement? s
      let rest := skipComment (skipSpace rest)
      match rest, lineEnd? rest with
      | [], _ => return [first]
      | _, some rest => return first :: (← statements? fuel rest)
      | _, none => none

/-- A document while it is built: its entries, and the path of the table that is open. -/
structure Builder where
  entries : Entries
  current : List String

/-- Takes in one statement. -/
def Builder.add (b : Builder) : Statement → Option Builder
  | .pair key value => do
    let entries ← b.entries.inCurrent b.current (·.addPair key value)
    return { b with entries := entries }
  | .openTable key => do return ⟨← b.entries.openTable key, key⟩
  | .openNext key => do return ⟨← b.entries.openNext key, key⟩

/-- The entries of the root table of a document, or `none` if it is not TOML.  A byte order mark
may stand in front. -/
def parse? (document : String) : Option (List (String × Toml)) := do
  let chars := document.toList
  let chars := if chars.head? == some '\uFEFF' then chars.tail else chars
  let statements ← statements? (chars.length + 1) chars
  let built ← statements.foldlM Builder.add ⟨[], []⟩
  return Node.entriesToToml built.entries

end ParseAudit.Toml
