import ParseAudit.Command.Run
import ParseAudit.Schema.Documents
import ParseAudit.Schema.Hygiene
/-!
# Upkeep of a project

The tasks that keep the files of a project in order: the schemas are written and compared with what
they should be, and the golden reports among the fixtures are checked.
-/

namespace ParseAudit.Upkeep

/-! ## Places -/

/-- The directory of the project: the one of the tasks, or its parent if it is named for them. -/
def projectRoot (environment : Environment) (t : FileTree) : String :=
  let place := match environment.lookup "CARGO_MANIFEST_DIR" with
    | some place => place
    | none => (FileTree.placeText? t.directory).getD ""
  if PathText.lastName? place = some "xtask" then (PathText.parent? place).getD place else place

/-- The directory of the schemas. -/
def schemasPlace (root : String) : String := RepoPath.joinText root "schemas"

/-- The directory of the fixtures. -/
def fixturesPlace (root : String) : String :=
  RepoPath.joinText (RepoPath.joinText root "tests") "fixtures"

/-! ## Schemas -/

/-- Writes the schemas. -/
def emitSchemas (root : String) : Action Unit := do
  let place := schemasPlace root
  Action.makeDirectories "Failed to create schemas directory" place
  for (name, schema) in SchemaDocument.published do
    let path := RepoPath.joinText place name
    Action.change ("Failed to write schema to " ++ path)
      (·.write path (Octets.ofText schema.text))
    Action.printLine ("Wrote " ++ path)
  Action.printLine "\nSchemas emitted successfully."

/-- How the file of a schema stands to what it should be. -/
inductive SchemaState where
  | current
  | missing
  | outdated
  deriving DecidableEq

/-- How the file of a schema stands. -/
def schemaState (t : FileTree) (path : String) (schema : SchemaDocument) :
    Except Failure SchemaState := do
  if !t.pathExists path then return .missing
  let text ← Except.within ("Failed to read " ++ path) .file (t.readText path)
  return if text = schema.text then .current else .outdated

/-- Says which schemas are in a bad state. -/
def remarkNames (title : String) (names : List String) : Action Unit := do
  if !names.isEmpty then
    Action.remarkLine title
    for name in names do
      Action.remarkLine ("  - " ++ name)

/-- Compares the files of the schemas with what they should be. -/
def validateSchemas (root : String) : Action Unit := do
  let stateOf (t : FileTree) (name : String) (schema : SchemaDocument) := do
    return (name, ← schemaState t (RepoPath.joinText (schemasPlace root) name) schema)
  let states ← Action.look fun t =>
    .ofExcept (SchemaDocument.published.mapM fun (name, schema) => stateOf t name schema)
  let inState (state : SchemaState) : List String :=
    (states.filter fun (_, s) => s = state).map (·.1)
  if (inState .missing).isEmpty && (inState .outdated).isEmpty then
    Action.printLine "All schemas are up to date."
  else
    remarkNames "Missing schemas:" (inState .missing)
    remarkNames "Schemas out of date:" (inState .outdated)
    Action.remarkLine "\nRun `cargo xtask emit-schemas` to regenerate."
    Action.fail (.ofText "Schema validation failed")

/-! ## Fixtures -/

/-- The order of octets. -/
def octetsBefore : Octets → Octets → Bool
  | [], _ => true
  | _ :: _, [] => false
  | a :: as, b :: bs => if a = b then octetsBefore as bs else a < b

/-- The names of the directories in a directory, in order. -/
def directoryNames (t : FileTree) (place : String) : Except FileError (List FileName) := do
  match ← t.spot place with
  | .found base (.directory children) =>
    let names := children.filterMap fun (name, _) =>
      match t.follow .looking FileTree.maxLinks base [.down name] with
      | .ok (.found _ (.directory _)) => some name
      | _ => none
    return names.mergeSort octetsBefore
  | .found .. => .error .notADirectory
  | .free .. => .error .notFound

/-- The path of a file of a fixture, whose name need not be text. -/
def fixtureFile (place : String) (fixture : FileName) (file : String) : Octets :=
  Octets.ofText place ++ PathStep.slashOctet :: fixture
    ++ PathStep.slashOctet :: Octets.ofText file

/-- Reads a file as JSON. -/
def readJson (t : FileTree) (path : Octets) : Except Failure Json := do
  let shown := Octets.toTextLenient path
  let text ← Except.within ("Failed to read " ++ shown) .file (t.readTextAt path)
  match Json.parse? text with
  | some value => return value
  | none => .error ⟨["Failed to parse " ++ shown ++ " as JSON"], .json⟩

/-- What is wrong with the golden report of a fixture. -/
def reportErrors (name : String) (value : Json) : List String :=
  (SchemaDocument.report.violations value).map (fun v =>
    name ++ ": schema validation: " ++ v.message) ++ Hygiene.errors name value

/-- Checks a fixture.  Gives what is wrong with it, and whether it has a golden report. -/
def checkFixture (place : String) (fileName : FileName) : Action (List String × Bool) := do
  let name := Octets.toTextLenient fileName
  let isMissing (file : String) : Action Bool :=
    Action.look fun t => return (t.nodeAt (fixtureFile place fileName file)).toOption.isNone
  let absent ← ["parseguard.toml", "parser-output.txt"].filterM isMissing
  let errors := absent.map fun file => name ++ ": missing " ++ file
  let golden := "expected.report.json"
  if ← isMissing golden then return (errors ++ [name ++ ": missing " ++ golden], false)
  let value ← Action.look fun t => .ofExcept (readJson t (fixtureFile place fileName golden))
  Action.printLine ("  ✓ " ++ name)
  return (errors ++ reportErrors name value, true)

/-- Checks the golden reports of all fixtures. -/
def conform (root : String) : Action Unit := do
  Action.printLine "✓ parseguard.report.v1 schema compiles"
  let place := fixturesPlace root
  let names ← Action.look fun t =>
    .ofExcept (Except.within ("Failed to read " ++ place) .file (directoryNames t place))
  let results ← names.mapM (checkFixture place)
  let count := results.countP (·.2)
  let errors := results.flatMap (·.1)
  if count = 0 then Action.fail (.ofText ("No fixtures found in " ++ place))
  if !errors.isEmpty then
    Action.remarkLine "\nConformance errors:"
    for error in errors do
      Action.remarkLine ("  - " ++ error)
    Action.fail (.ofText
      ("Conformance validation failed with " ++ Text.natural errors.length ++ " errors"))
  Action.printLine ("\n✓ All " ++ Text.natural count ++ " fixtures pass conformance checks!")

/-! ## Tasks -/

/-- A task. -/
inductive Task where
  | help
  | emitSchemas
  | validateSchemas
  | conform
  | printSchemaIds
  deriving DecidableEq, Repr

namespace Task

/-- The names by which the tasks are asked for. -/
def names : List (String × Task) := [
  ("help", help), ("--help", help), ("-h", help), ("emit-schemas", emitSchemas),
  ("validate-schemas", validateSchemas), ("conform", conform),
  ("print-schema-ids", printSchemaIds)]

/-- The task of the given name. -/
def ofName? (name : String) : Option Task := names.lookup name

/-- The lines of help on the tasks. -/
def helpLines : List String := [
  "xtask commands:",
  "  help              Show this message",
  "  emit-schemas      Generate JSON schemas from Rust types to schemas/",
  "  validate-schemas  Check if schemas/ matches generated output (for CI)",
  "  print-schema-ids  Print known schema IDs",
  "  conform           Validate fixture golden reports against the report schema"]

/-- The identifier of a schema: the name of its file without the ending. -/
def schemaId (fileName : String) : String :=
  String.ofList ((Chars.stripEnd? ".json".toList fileName.toList).getD fileName.toList)

/-- Runs a task on the project in a directory. -/
def run (root : String) : Task → Action Unit
  | help =>
    for line in helpLines do
      Action.remarkLine line
  | emitSchemas => Upkeep.emitSchemas root
  | validateSchemas => Upkeep.validateSchemas root
  | conform => Upkeep.conform root
  | printSchemaIds =>
    for (fileName, _) in SchemaDocument.published do
      Action.printLine (schemaId fileName)

end Task

/-- What is said of a name that is none of a task. -/
def unknownTask (name : String) : Failure :=
  .ofText ("unknown xtask command: " ++ name ++ "\n\nRun `cargo xtask help` for usage.")

/-- Runs the task that the first word names; words after it do not count. -/
def run (environment : Environment) (t : FileTree) (words : List String) : RunResult :=
  let name := words.headD "help"
  let action : Action UInt32 := do
    match Task.ofName? name with
    | some task => (task.run (projectRoot environment t)).within "xtask failed"
    | none => Action.fail (unknownTask name)
    return 0
  .ofEffect ⟨[]⟩ (action t)

end ParseAudit.Upkeep
