import ParseAudit.Selection.Resolve
import ParseAudit.Settings.Resolve
/-!
# Resolving a set of files by itself

One of the two sets of files is resolved without a parser, and may be written as a list file.  A
list that was written so can be read back as a list of finished paths.
-/

namespace ParseAudit

/-- One of the two sets of files. -/
inductive FileTarget where
  | files
  | invalidFiles
  deriving DecidableEq, Repr

/-- What is needed to resolve a set of files. -/
structure ResolveRequest where
  workspace : String
  /-- The text of the settings document, which may be blank. -/
  document : String
  overrides : Overrides
  target : FileTarget
  /-- Where to write the paths, seen from the workspace. -/
  listOut : Option String

namespace FileSources

/-- The source of one of the sets. -/
def get (s : FileSources) : FileTarget → FileSource
  | .files => s.files
  | .invalidFiles => s.invalidFiles

end FileSources

namespace ResolveRequest

/-- The source of the set that is asked for. -/
def source (r : ResolveRequest) : Except Failure FileSource := do
  let document ← SettingsDocument.parseOrEmpty r.document
  let sources ← (Settings.sources document r.overrides).mapError (.within "resolve config")
  return sources.get r.target

/-- Resolves the set that is asked for. -/
def run (r : ResolveRequest) : Action FileSet := do
  let source ← Action.ofExcept r.source
  let files ← Action.look fun t => Selection.resolve t r.workspace source
  if let some place := r.listOut then
    let path := RepoPath.joinText r.workspace place
    ListFile.write path files
    Action.log .info .resolve ("wrote " ++ Text.natural files.size ++ " path(s) to " ++ path)
  return files

end ResolveRequest

end ParseAudit
