import ParseAudit.Text.Blank
import ParseAudit.RepoPath
/-!
# Settings

What an audit is asked to do: which parser to call and how, which files to check, and which files
are known to be invalid.  A set of files is described by a `FileSource`: patterns, and a list file
whose entries are further patterns or finished paths.
-/

namespace ParseAudit

/-- How the parser is called. -/
inductive Mode where
  /-- One call for all files. -/
  | batch
  /-- One call for each file, one after another. -/
  | perFile
  deriving DecidableEq, Repr

/-- How the entries of a list file are read. -/
inductive ListKind where
  /-- As patterns, beside those given directly. -/
  | patterns
  /-- As paths that are merged as they are. -/
  | paths
  deriving DecidableEq, Repr

/-- What is wrong with settings. -/
inductive ConfigError where
  | missingParser
  | noFileInputs
  | unknownMode (name : String)
  | unknownListKind (name : String)
  deriving DecidableEq, Repr

namespace ConfigError

/-- The wording of a settings error. -/
def message : ConfigError → String
  | missingParser => "no parser configured (pass --parser or set `parser` in the config)"
  | noFileInputs =>
    "no files to check (pass --files/--files-list or set `files`/`files_list`)"
  | unknownMode name => "unknown mode: " ++ name ++ " (expected 'batch' or 'per-file')"
  | unknownListKind name =>
    "unknown list kind: " ++ name ++ " (expected 'patterns' or 'paths')"

end ConfigError

namespace Mode

/-- The name of a mode. -/
def name : Mode → String
  | batch => "batch"
  | perFile => "per-file"

/-- The mode with the given name; the second one has three names. -/
def ofName (s : String) : Except ConfigError Mode :=
  if s = "batch" then .ok batch
  else if s = "per-file" ∨ s = "per_file" ∨ s = "single" then .ok perFile
  else .error (.unknownMode s)

end Mode

namespace ListKind

/-- The name of a list kind. -/
def name : ListKind → String
  | patterns => "patterns"
  | paths => "paths"

/-- The list kind with the given name; each one has two names. -/
def ofName (s : String) : Except ConfigError ListKind :=
  if s = "patterns" ∨ s = "globs" then .ok patterns
  else if s = "paths" ∨ s = "resolved" then .ok paths
  else .error (.unknownListKind s)

end ListKind

/-- The description of a set of files. -/
structure FileSource where
  patterns : List String
  /-- The place of the list file, seen from the workspace. -/
  listFile : Option String
  listKind : ListKind
  deriving DecidableEq, Repr

namespace FileSource

/-- Whether neither a pattern nor a list file is given. -/
def isEmpty (s : FileSource) : Bool := s.patterns.all Text.isBlankText && s.listFile.isNone

end FileSource

/-- The descriptions of both sets of files. -/
structure FileSources where
  files : FileSource
  invalidFiles : FileSource
  deriving DecidableEq, Repr

/-- Settings in which nothing is left open. -/
structure Settings extends FileSources where
  parser : String
  /-- What is passed to the parser before the files. -/
  parserArgs : List String
  mode : Mode
  maxAnnotations : Nat
  deriving DecidableEq, Repr

end ParseAudit
