import ParseAudit.Text.Lines
/-!
# Reading options

Options are written `--name value`, `--name=value`, `-n value`, `-nvalue` or `-n=value`; short
options without a value can be written together.  The first word that is no option must name a
subcommand, which takes the rest.  An option with a value counts once unless it may be repeated,
and a value that starts with `-` must be attached, unless the option takes any value.
-/

namespace ParseAudit

/-- What an option takes. -/
inductive OptionKind where
  | flag
  /-- A value that must pass a test. -/
  | value (valid : String → Bool)
  /-- Any number of values, one each time. -/
  | values
  /-- Any number of values, which may look like options. -/
  | anyValues
  | help
  | version

/-- An option. -/
structure OptionSpec where
  name : String
  short : Option Char
  kind : OptionKind

/-- Why the reading of options ends early. -/
inductive OptionsEnd where
  /-- The options are not used as they should be. -/
  | misuse
  | help
  | version
  deriving DecidableEq, Repr

/-- The options that were read, and the subcommand with its words. -/
structure OptionsRead where
  /-- The values by the names of the options, in the order of the words. -/
  values : List (String × String)
  subcommand : Option (String × List String)
  deriving DecidableEq, Repr

namespace OptionsRead

/-- The value of an option. -/
def value? (o : OptionsRead) (name : String) : Option String := o.values.lookup name

/-- The values of an option that may be repeated. -/
def all (o : OptionsRead) (name : String) : List String :=
  o.values.filterMap fun (key, value) => if key = name then some value else none

/-- Whether a flag is set. -/
def isSet (o : OptionsRead) (name : String) : Bool := (o.value? name).isSome

end OptionsRead

namespace Options

/-- Whether an option stands alone. -/
def takesValue : OptionKind → Bool
  | .value _ | .values | .anyValues => true
  | .flag | .help | .version => false

/-- Adds a value of an option to those read before. -/
def add (read : List (String × String)) (o : OptionSpec) (value : String) :
    Except OptionsEnd (List (String × String)) :=
  let known := (read.lookup o.name).isSome
  match o.kind with
  | .flag => if known then .error .misuse else .ok (read ++ [(o.name, value)])
  | .value valid =>
    if known || !valid value then .error .misuse else .ok (read ++ [(o.name, value)])
  | .values | .anyValues => .ok (read ++ [(o.name, value)])
  | .help => .error .help
  | .version => .error .version

/-- Reads short options that are written together.  Gives the option that waits for a value, if the
last one does. -/
def readShort (specs : List OptionSpec) (read : List (String × String)) :
    List Char → Except OptionsEnd (List (String × String) × Option OptionSpec)
  | [] => .ok (read, none)
  | c :: rest =>
    match specs.find? (·.short == some c) with
    | none => .error .misuse
    | some o =>
      if takesValue o.kind then
        match rest with
        | [] => .ok (read, some o)
        | '=' :: value => do return (← add read o (String.ofList value), none)
        | value => do return (← add read o (String.ofList value), none)
      else do readShort specs (← add read o "") rest

/-- Reads a long option after its dashes. -/
def readLong (specs : List OptionSpec) (read : List (String × String)) (text : List Char) :
    Except OptionsEnd (List (String × String) × Option OptionSpec) :=
  let name := String.ofList (text.takeWhile (· != '='))
  let attached := (text.dropWhile (· != '=')).tail?
  match specs.find? (·.name == name) with
  | none => .error .misuse
  | some o =>
    match takesValue o.kind, attached with
    | true, some value => do return (← add read o (String.ofList value), none)
    | true, none => .ok (read, some o)
    | false, some _ => .error .misuse
    | false, none => do return (← add read o "", none)

/-- Whether an option takes any word as its value. -/
def takesAnything (o : OptionSpec) : Bool :=
  match o.kind with
  | .anyValues => true
  | _ => false

/-- Reads words; `waiting` is the option that waits for its value, and `ended` says that a `--`
ended the options. -/
def readFrom (specs : List OptionSpec) (subcommands : List String) (ended : Bool)
    (waiting : Option OptionSpec) (read : List (String × String)) :
    List String → Except OptionsEnd OptionsRead
  | [] => if waiting.isSome then .error .misuse else .ok ⟨read, none⟩
  | word :: words =>
    if ended then .error .misuse
    else
      match waiting, word.toList with
      | some o, chars =>
        -- A single dash is a word like any other.
        if takesAnything o || chars.head? != some '-' || chars == ['-'] then do
          readFrom specs subcommands false none (← add read o word) words
        else .error .misuse
      | none, ['-', '-'] => readFrom specs subcommands true none read words
      | none, '-' :: '-' :: text => do
        let (read, waiting) ← readLong specs read text
        readFrom specs subcommands false waiting read words
      | none, '-' :: c :: rest => do
        let (read, waiting) ← readShort specs read (c :: rest)
        readFrom specs subcommands false waiting read words
      | none, _ =>
        if subcommands.contains word then .ok ⟨read, some (word, words)⟩ else .error .misuse

/-- Reads words. -/
def read (specs : List OptionSpec) (subcommands words : List String) :
    Except OptionsEnd OptionsRead :=
  readFrom specs subcommands false none [] words

end Options

end ParseAudit
