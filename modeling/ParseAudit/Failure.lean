import ParseAudit.Glob.Nesting
import ParseAudit.Scan
import ParseAudit.Settings.Basic
/-!
# Failures

A run that cannot go on fails with a *cause* and the contexts in which the cause arose, the
outermost first.  Parse errors in checked files are no failures.
-/

namespace ParseAudit

/-- Why an operation on files failed. -/
inductive FileError where
  | notFound
  | permissionDenied
  | alreadyExists
  | notADirectory
  | isADirectory
  | invalidArgument
  | nameTooLong
  | directoryNotEmpty
  | tooManyLinks
  | argumentTooLong
  /-- The name holds a NUL character. -/
  | nulInName
  /-- The program or an argument of a call holds a NUL character. -/
  | nulInCall
  /-- The contents were asked for as text and are not UTF-8. -/
  | notText
  /-- Any other error that the system knows, by its number and in its words. -/
  | other (number : Nat) (words : String)
  deriving DecidableEq, Repr

namespace FileError

/-- What went wrong, in words. -/
def description : FileError → String
  | notFound => "No such file or directory"
  | permissionDenied => "Permission denied"
  | alreadyExists => "File exists"
  | notADirectory => "Not a directory"
  | isADirectory => "Is a directory"
  | invalidArgument => "Invalid argument"
  | nameTooLong => "File name too long"
  | directoryNotEmpty => "Directory not empty"
  | tooManyLinks => "Too many levels of symbolic links"
  | argumentTooLong => "Argument list too long"
  | nulInName => "file name contained an unexpected NUL byte"
  | nulInCall => "nul byte found in provided data"
  | notText => "stream did not contain valid UTF-8"
  | other _ words => words

/-- The number of an error that the system knows. -/
def number? : FileError → Option Nat
  | notFound => some 2
  | argumentTooLong => some 7
  | permissionDenied => some 13
  | alreadyExists => some 17
  | notADirectory => some 20
  | isADirectory => some 21
  | invalidArgument => some 22
  | nameTooLong => some 36
  | directoryNotEmpty => some 39
  | tooManyLinks => some 40
  | nulInName | nulInCall | notText => none
  | other number _ => some number

/-- The wording of a file error, with its number if it has one. -/
def message (e : FileError) : String :=
  match e.number? with
  | some n => e.description ++ " (os error " ++ Text.natural n ++ ")"
  | none => e.description

end FileError

/-- The cause of a failure. -/
inductive Cause where
  | config (e : ConfigError)
  | scan (e : ScanError)
  | glob (e : Glob.Error)
  | globSet (e : Glob.NestingError)
  | file (e : FileError)
  /-- A settings document that is not TOML, or holds a setting of the wrong type. -/
  | toml
  /-- A document that is not JSON, or does not have the form of a report. -/
  | json
  | other (text : String)
  deriving DecidableEq, Repr

namespace Cause

/-- What a cause has to say, from the outside in. -/
def chain : Cause → List String
  | config e => [e.message]
  | scan e => [e.message, e.cause.message]
  | glob e => [e.message]
  | globSet e => [e.message]
  | file e => [e.message]
  | toml => ["not a TOML document of settings"]
  | json => ["not a JSON document of the expected form"]
  | other text => [text]

/-- Whether parser output broke the line grammar. -/
def isScan : Cause → Bool
  | scan _ => true
  | _ => false

end Cause

/-- A cause and the contexts in which it arose. -/
structure Failure where
  /-- The outermost context first. -/
  contexts : List String
  cause : Cause
  deriving DecidableEq, Repr

namespace Failure

instance : Coe Cause Failure := ⟨fun cause => ⟨[], cause⟩⟩

/-- A failure that only a text describes. -/
def ofText (text : String) : Failure := ⟨[], .other text⟩

/-- Puts a failure into one more context. -/
def within (context : String) (f : Failure) : Failure :=
  { f with contexts := context :: f.contexts }

/-- What a failure has to say, from the outside in. -/
def chain (f : Failure) : List String := f.contexts ++ f.cause.chain

/-- A failure in one text. -/
def message (f : Failure) : String := ": ".intercalate f.chain

end Failure

/-- Turns an error into a failure in the given context. -/
def Except.within {ε α : Type} (context : String) (toCause : ε → Cause) :
    Except ε α → Except Failure α
  | .ok a => .ok a
  | .error e => .error ⟨[context], toCause e⟩

end ParseAudit
