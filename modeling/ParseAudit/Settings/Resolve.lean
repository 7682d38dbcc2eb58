import ParseAudit.Settings.Document
import ParseAudit.Text.Lines
/-!
# Resolving settings

The settings of a run come from a document and from overrides given with the call.  An override
counts before the document; the patterns of an override replace those of the document as soon as
one of them is not blank.  A value may hold several patterns, one to a line.  Every pattern is
checked here, before any file is looked at.
-/

namespace ParseAudit

/-- What is given with the call. -/
structure Overrides where
  parser : Option String
  parserArgs : Option (List String)
  mode : Option String
  files : List String
  filesList : Option String
  filesListKind : Option String
  invalidFiles : List String
  invalidFilesList : Option String
  invalidFilesListKind : Option String
  maxAnnotations : Option UInt32
  deriving DecidableEq, Repr

namespace Overrides

/-- No overrides. -/
def none : Overrides :=
  ⟨.none, .none, .none, [], .none, .none, [], .none, .none, .none⟩

end Overrides

namespace Settings

/-- The arguments for a parser that is given none. -/
def defaultParserArgs : List String := ["parse", "-q", "-t"]

/-- The number of annotations to show unless something else is said. -/
def defaultMaxAnnotations : Nat := 50

/-! ## Patterns -/

/-- The values to take: those of the override if one of them is not blank. -/
def pick (override document : List String) : List String :=
  if override.any fun value => !Text.isBlankText value then override else document

/-- The patterns in some values, one to a line, without blanks around them. -/
def patternsOf (values : List String) : List String :=
  ((values.flatMap Text.lines).map Text.trim).filter fun pattern => !pattern.isEmpty

/-- A pattern without the mark of an exclusion. -/
def bodyOf (pattern : String) : String := (Text.stripStart? "!" pattern).getD pattern

/-- Checks one pattern. -/
def checkPattern (pattern : String) : Except Failure Unit :=
  match Glob.parse (bodyOf pattern) with
  | .ok _ => .ok ()
  | .error e => .error ⟨["invalid glob pattern: " ++ pattern], .glob e⟩

/-- Checks patterns in their order. -/
def checkPatterns (patterns : List String) : Except Failure Unit := patterns.forM checkPattern

/-! ## Sources -/

/-- The list kind, which may be left open. -/
def listKindOf : Option String → Except Failure ListKind
  | none => .ok .patterns
  | some name => (ListKind.ofName name).mapError fun e => ⟨[], .config e⟩

/-- The place of the list file, if it is not blank. -/
def listFileOf (place : Option String) : Option String :=
  (place.map Text.trim).filter fun place => !place.isEmpty

/-- The source that some values describe. -/
def sourceOf (values : List String) (listFile listKind : Option String) :
    Except Failure FileSource := do
  let patterns := patternsOf values
  checkPatterns patterns
  let kind ← listKindOf listKind
  return ⟨patterns, listFileOf listFile, kind⟩

/-- The sources of both sets of files. -/
def sources (document : SettingsDocument) (o : Overrides) : Except Failure FileSources := do
  let files ← (sourceOf (pick o.files document.files) (o.filesList <|> document.filesList)
    (o.filesListKind <|> document.filesListKind)).mapError (.within "resolve files")
  let invalidFiles ← (sourceOf (pick o.invalidFiles document.invalidFiles)
    (o.invalidFilesList <|> document.invalidFilesList)
    (o.invalidFilesListKind <|> document.invalidFilesListKind)).mapError
      (.within "resolve invalid_files")
  return ⟨files, invalidFiles⟩

/-! ## Everything -/

/-- The parser, which must be given. -/
def parserOf (name : Option String) : Except Failure String :=
  match (name.map Text.trim).filter fun name => !name.isEmpty with
  | some name => .ok name
  | none => .error ⟨[], .config .missingParser⟩

/-- The mode, which may be left open. -/
def modeOf : Option String → Except Failure Mode
  | none => .ok .batch
  | some name => (Mode.ofName name).mapError fun e => ⟨[], .config e⟩

/-- The settings of a run. -/
def resolve (document : SettingsDocument) (o : Overrides) : Except Failure Settings := do
  let parser ← parserOf (o.parser <|> document.parser)
  let parserArgs := ((o.parserArgs <|> document.parserArgs).getD defaultParserArgs)
  let mode ← modeOf (o.mode <|> document.mode)
  let sources ← sources document o
  if sources.files.isEmpty then .error ⟨[], .config .noFileInputs⟩
  else
    let max := (o.maxAnnotations <|> document.maxAnnotations).map UInt32.toNat
    return {
      sources with
      parser, parserArgs, mode
      maxAnnotations := max.getD defaultMaxAnnotations }

end Settings

end ParseAudit
