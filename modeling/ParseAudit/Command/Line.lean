import ParseAudit.Command.Options
import ParseAudit.Resolve
/-!
# The command line

The program has four commands: `check` runs a check, `resolve` shows a set of files, `md` and
`annotations` show a report that was written before.  Some options fall back on variables of the
environment.
-/

namespace ParseAudit

/-- The options of every command. -/
structure GlobalOptions where
  repoRoot : String
  config : String
  verbose : Bool
  debug : Bool
  deriving DecidableEq, Repr

/-- The options of `check`, those of the settings apart. -/
structure CheckOptions where
  overrides : Overrides
  osName : Option String
  jobOutput : Option String
  stepSummary : Option String
  reportOut : String
  writeMarkdown : Bool
  markdownOut : String

/-- A command with its options. -/
inductive Command where
  | check (options : CheckOptions)
  | resolve (target : FileTarget) (overrides : Overrides) (output : Option String)
  | markdown (report : String) (output : Option String)
  | annotations (report : String) (max : Nat)

/-- What a command line asks for. -/
structure CommandLine where
  options : GlobalOptions
  command : Command

namespace CommandLine

/-! ## The options -/

/-- An option with a value. -/
def valueOption (name : String) : OptionSpec := ⟨name, none, .value fun _ => true⟩

/-- An option with a value that must pass a test. -/
def checkedOption (name : String) (valid : String → Bool) : OptionSpec := ⟨name, none, .value valid⟩

/-- Whether a text is a 32-bit number, perhaps with a sign. -/
def isUInt32 (s : String) : Bool :=
  match s.toList with
  | '-' :: digits => digits.head? != some '+' && (Chars.naturalBelow? 1 digits).isSome
  | digits => (Chars.naturalBelow? UInt32.size digits).isSome

/-- The value of a 32-bit number. -/
def uint32Of (s : String) : UInt32 := UInt32.ofNat ((Chars.natural? s.toList).getD 0)

/-- The options that every command takes, before and after its name. -/
def sharedOptions : List OptionSpec := [
  ⟨"verbose", some 'v', .flag⟩, ⟨"debug", none, .flag⟩, ⟨"help", some 'h', .help⟩]

/-- The options before the name of the command. -/
def globalOptions : List OptionSpec :=
  [valueOption "repo-root", valueOption "config", ⟨"version", some 'V', .version⟩]
    ++ sharedOptions

/-- The options for both sets of files. -/
def fileOptions : List OptionSpec := [
  ⟨"files", none, .values⟩, valueOption "files-list", valueOption "files-list-kind",
  ⟨"invalid-files", none, .values⟩, valueOption "invalid-files-list",
  valueOption "invalid-files-list-kind"]

/-- The options of `check`. -/
def checkOptions : List OptionSpec :=
  [valueOption "parser", ⟨"parser-arg", none, .anyValues⟩, valueOption "mode",
    checkedOption "max-annotations" isUInt32, valueOption "os-name", valueOption "github-output",
    valueOption "step-summary", valueOption "report-out", ⟨"write-markdown", none, .flag⟩,
    valueOption "markdown-out"] ++ fileOptions ++ sharedOptions

/-- The file target with the given name. -/
def targetOf? (name : String) : Option FileTarget :=
  if name = "files" then some .files
  else if name = "invalid-files" then some .invalidFiles
  else none

/-- The option for a place of output. -/
def outputOption : OptionSpec := ⟨"output", some 'o', .value fun _ => true⟩

/-- The options of `resolve`. -/
def resolveOptions : List OptionSpec :=
  [checkedOption "target" fun name => (targetOf? name).isSome, outputOption]
    ++ fileOptions ++ sharedOptions

/-- The options of `md`. -/
def markdownOptions : List OptionSpec := [valueOption "report", outputOption] ++ sharedOptions

/-- The options of `annotations`. -/
def annotationsOptions : List OptionSpec :=
  [valueOption "report", checkedOption "max" fun s =>
    (Chars.naturalBelow? UInt64.size s.toList).isSome] ++ sharedOptions

/-! ## Reading -/

/-- The place of a report unless something else is said. -/
def defaultReport : String := "artifacts/parseguard/report.json"

/-- The overrides among the options for both sets of files. -/
def overridesOf (o : OptionsRead) : Overrides :=
  { Overrides.none with
    files := o.all "files"
    filesList := o.value? "files-list"
    filesListKind := o.value? "files-list-kind"
    invalidFiles := o.all "invalid-files"
    invalidFilesList := o.value? "invalid-files-list"
    invalidFilesListKind := o.value? "invalid-files-list-kind" }

/-- The value of an option, or of a variable of the environment. -/
def valueOr (o : OptionsRead) (name : String) (environment : Environment) (key : String) :
    Option String :=
  o.value? name <|> environment.lookup key

/-- The command `check` with its options. -/
def checkCommand (environment : Environment) (o : OptionsRead) : Command :=
  let parserArgs := o.all "parser-arg"
  .check {
    overrides := { overridesOf o with
      parser := o.value? "parser"
      parserArgs := if parserArgs.isEmpty then none else some parserArgs
      mode := o.value? "mode"
      maxAnnotations := (o.value? "max-annotations").map uint32Of }
    osName := valueOr o "os-name" environment "RUNNER_OS"
    jobOutput := valueOr o "github-output" environment "GITHUB_OUTPUT"
    stepSummary := valueOr o "step-summary" environment "GITHUB_STEP_SUMMARY"
    reportOut := (o.value? "report-out").getD defaultReport
    writeMarkdown := o.isSet "write-markdown"
    markdownOut := (o.value? "markdown-out").getD "artifacts/parseguard/summary.md" }

/-- The command `resolve` with its options. -/
def resolveCommand (o : OptionsRead) : Command :=
  .resolve (((o.value? "target").bind targetOf?).getD .files) (overridesOf o) (o.value? "output")

/-- The command `md` with its options. -/
def markdownCommand (o : OptionsRead) : Command :=
  .markdown ((o.value? "report").getD defaultReport) (o.value? "output")

/-- The command `annotations` with its options. -/
def annotationsCommand (o : OptionsRead) : Command :=
  .annotations ((o.value? "report").getD defaultReport)
    (((o.value? "max").bind fun s => Chars.natural? s.toList).getD Settings.defaultMaxAnnotations)

/-- The names of the commands, with their options and what they mean. -/
def commands (environment : Environment) :
    List (String × List OptionSpec × (OptionsRead → Command)) := [
  ("check", checkOptions, checkCommand environment),
  ("resolve", resolveOptions, resolveCommand),
  ("md", markdownOptions, markdownCommand),
  ("annotations", annotationsOptions, annotationsCommand)]

/-- The end of a request for help on a command. -/
def helpOn (names words : List String) : OptionsEnd :=
  match words with
  | [] => .help
  | [name] => if name = "help" ∨ names.contains name then .help else .misuse
  | _ => .misuse

/-- Reads the words of a command line. -/
def read (environment : Environment) (words : List String) : Except OptionsEnd CommandLine := do
  let names := (commands environment).map (·.1)
  let o ← Options.read globalOptions (names ++ ["help"]) words
  match o.subcommand with
  | none => .error .misuse
  | some (name, rest) =>
    match (commands environment).lookup name with
    | none => .error (helpOn names rest)
    | some (specs, toCommand) =>
      let inner ← Options.read specs [] rest
      return {
        options := {
          repoRoot := (valueOr o "repo-root" environment "GITHUB_WORKSPACE").getD "."
          config := (o.value? "config").getD "parseguard.toml"
          verbose := o.isSet "verbose" || inner.isSet "verbose"
          debug := o.isSet "debug" || inner.isSet "debug" }
        command := toCommand inner }

end CommandLine

end ParseAudit
