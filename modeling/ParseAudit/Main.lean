import ParseAudit.Command.Upkeep
import ParseAudit.Script.Respond
import Std.Time
/-!
# The program

The program loads the files that it may look at into a file tree, runs a command on the tree, and
stores the files that the command changed.  Parsers are run by the scripts of this library.  Under
the name `xtask` the program does the upkeep of a project.
-/

namespace ParseAudit.Program

/-! ## Files -/

/-- The names on the way to a path from the root. -/
def namesOf (path : String) : List FileName :=
  (PathStep.segments (Octets.ofText path)).filter fun name => !name.isEmpty

/-- Loads what some directory entries stand for.  Every file may be run. -/
partial def loadEntries (entries : List IO.FS.DirEntry) : IO FileNode.Children := do
  let wanted := entries.filter fun e => Octets.ofText e.fileName != FileNode.skippedName
  wanted.mapM fun e => do
    let name := Octets.ofText e.fileName
    if ← e.path.isDir then
      return (name, .directory (← loadEntries (← e.path.readDir).toList))
    else
      let content ← try IO.FS.readBinFile e.path catch _ => pure .empty
      return (name, .file content.toList true)

/-- Loads the file or directory at a path, if there is one. -/
def load? (path : String) : IO (Option FileNode) := do
  try
    let place ← IO.FS.realPath path
    if ← place.isDir then
      return some (.directory (← loadEntries (← place.readDir).toList))
    else if ← place.pathExists then
      return some (.file (← IO.FS.readBinFile place).toList true)
    else return none
  catch _ => return none

/-- Puts a node at the end of some names, with the directories on the way. -/
def putAt (node : FileNode) : List FileName → FileNode → FileNode
  | [], _ => node
  | name :: names, .directory children =>
    let child := (FileNode.Children.get? children name).getD .emptyDirectory
    .directory (FileNode.Children.set children name (putAt node names child))
  | _, other => other

/-- Loads the files at and beneath some paths. -/
def loadTree (directory : String) (paths : List String) : IO FileTree := do
  let mut root := FileNode.emptyDirectory
  for path in directory :: paths do
    if let some node ← load? path then
      root := putAt node (namesOf path) root
  return ⟨root, namesOf directory⟩

/-- The content of a file if another node is no file with the same content. -/
def changedContent? (new : FileNode) (old : Option FileNode) : Option Octets :=
  match new, old with
  | .file content _, some (.file former _) => if content = former then none else some content
  | .file content _, _ => some content
  | _, _ => none

/-- The files of a tree that another tree does not hold in the same form. -/
def changes (before after : FileTree) : List (String × Octets) :=
  after.root.leaves.filterMap fun (names, node) => do
    let content ← changedContent? node (before.root.node? names)
    return (← FileTree.placeText? names, content)

/-- Stores the files that were changed. -/
def store (before after : FileTree) : IO Unit := do
  for (path, content) in changes before after do
    if let some parent := PathText.parent? path then
      IO.FS.createDirAll parent
    IO.FS.writeBinFile path content.toByteArray

/-! ## Surroundings -/

/-- The variables that a run may look at. -/
def variableNames : List String :=
  ["GITHUB_WORKSPACE", "GITHUB_OUTPUT", "GITHUB_STEP_SUMMARY", "RUNNER_OS", "RUST_LOG",
    "CARGO_MANIFEST_DIR"]

/-- The variables that are set. -/
def environment : IO Environment := do
  let values ← variableNames.mapM fun name => return (name, ← IO.getEnv name)
  return values.filterMap fun (name, value) => value.map (name, ·)

/-- The time by the clock. -/
def now : IO Timestamp := do
  let t := Std.Time.DateTime.ofTimestamp (← Std.Time.Timestamp.now) Std.Time.TimeZone.ZoneRules.UTC
  return (Timestamp.ofParts? t.year.toInt.toNat t.month.val.toNat t.day.val.toNat t.hour.val.toNat
    t.minute.val.toNat t.second.val.toNat t.nanosecond.val.toNat 0).getD .unixEpoch

/-- Whether the program was started under the name of the upkeep tasks. -/
def isUpkeep : IO Bool := do
  return (← IO.appPath).fileStem == some "xtask"

/-- Runs the program on the words of its command line. -/
def run (words : List String) : IO RunResult := do
  let directory := toString (← IO.currentDir)
  let given ← environment
  let named := (words ++ given.map (·.2)).filter fun path =>
    Text.hasStart "/" path && !(namesOf path).isEmpty
  let start ← now
  let before ← loadTree directory named
  let clock : Clock := ⟨start, ← now⟩
  let result :=
    if ← isUpkeep then Upkeep.run given before words
    else runProgram ⟨given, clock, Script.respond given, .working⟩ before words
  store before result.tree
  return result

end ParseAudit.Program

/-- The program. -/
def main (words : List String) : IO UInt32 := do
  let result ← ParseAudit.Program.run words
  IO.print result.stdout
  IO.eprint result.stderr
  return result.exitCode
