import ParseAudit.Failure
import ParseAudit.Json.Value
import ParseAudit.Toml.Document
/-!
# The settings document

A settings document is a TOML document.  Every setting may be left out, and keys that name no
setting are skipped; a setting with a value of the wrong type makes the whole document unusable.
-/

namespace ParseAudit

/-- The settings that a document gives, as they stand there. -/
structure SettingsDocument where
  schema : Option String
  parser : Option String
  parserArgs : Option (List String)
  mode : Option String
  files : List String
  filesList : Option String
  filesListKind : Option String
  invalidFiles : List String
  invalidFilesList : Option String
  invalidFilesListKind : Option String
  maxAnnotations : Option UInt32
  deriving DecidableEq, Repr

namespace SettingsDocument

/-- The document that gives nothing. -/
def empty : SettingsDocument :=
  ⟨none, none, none, none, [], none, none, [], none, none, none⟩

instance : Inhabited SettingsDocument := ⟨empty⟩

/-! ## Reading -/

/-- A text. -/
def text? : Toml → Option String
  | .text s => some s
  | _ => none

/-- A list of texts. -/
def texts? : Toml → Option (List String)
  | .array items => items.mapM text?
  | _ => none

/-- A 32-bit number. -/
def uint32? : Toml → Option UInt32
  | .integer n => if 0 ≤ n ∧ n < UInt32.size then some (UInt32.ofNat n.toNat) else none
  | _ => none

/-- A setting that may be left out. -/
def setting {α : Type} (entries : List (String × Toml)) (key : String)
    (read? : Toml → Option α) : Option (Option α) :=
  match entries.lookup key with
  | none => some none
  | some value => (read? value).map some

/-- The settings among the entries of a table. -/
def ofEntries? (entries : List (String × Toml)) : Option SettingsDocument := do
  let schema ← setting entries "schema" text?
  let parser ← setting entries "parser" text?
  let parserArgs ← setting entries "parser_args" texts?
  let mode ← setting entries "mode" text?
  let files ← setting entries "files" texts?
  let filesList ← setting entries "files_list" text?
  let filesListKind ← setting entries "files_list_kind" text?
  let invalidFiles ← setting entries "invalid_files" texts?
  let invalidFilesList ← setting entries "invalid_files_list" text?
  let invalidFilesListKind ← setting entries "invalid_files_list_kind" text?
  let maxAnnotations ← setting entries "max_annotations" uint32?
  return {
    schema, parser, parserArgs, mode, filesList, filesListKind, invalidFilesList,
    invalidFilesListKind, maxAnnotations
    files := files.getD []
    invalidFiles := invalidFiles.getD [] }

/-- Reads a settings document. -/
def parse (document : String) : Except Failure SettingsDocument :=
  match (Toml.parse? document).bind ofEntries? with
  | some settings => .ok settings
  | none => .error ⟨[], .toml⟩

/-- Reads the settings document of a run, which may be blank throughout. -/
def parseOrEmpty (document : String) : Except Failure SettingsDocument :=
  if Text.isBlankText document then .ok empty
  else (parse document).mapError (.within "parse config")

/-! ## Showing -/

/-- The settings in JSON; what is left out there is left out here. -/
def toJson (d : SettingsDocument) : Json :=
  let members : List (String × Option Json) := [
    ("schema", d.schema.map .str),
    ("parser", d.parser.map .str),
    ("parser_args", d.parserArgs.map .strings),
    ("mode", d.mode.map .str),
    ("files", some (.strings d.files)),
    ("files_list", d.filesList.map .str),
    ("files_list_kind", d.filesListKind.map .str),
    ("invalid_files", some (.strings d.invalidFiles)),
    ("invalid_files_list", d.invalidFilesList.map .str),
    ("invalid_files_list_kind", d.invalidFilesListKind.map .str),
    ("max_annotations", d.maxAnnotations.map .ofUInt32)]
  .obj (members.filterMap fun (key, value) => value.map fun v => (key, v))

end SettingsDocument

end ParseAudit
