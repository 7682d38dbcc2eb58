import ParseAudit.Trace
import ParseAudit.Tree.Change
/-!
# Actions

An `Action α` is a traced computation that may also change the file tree and print.  What it did
before a failure stays done.  Lines are written to a `Console`, which may refuse them.
-/

namespace ParseAudit

/-- Why a text was not written, or not all of it. -/
structure Refusal where
  /-- How many characters were taken nevertheless. -/
  taken : Nat
  error : FileError

/-- Where lines are written to.  What becomes of a text may depend on all that was written
before. -/
structure Console where
  /-- After what was written before, the refusal of a text if it is refused. -/
  refusal? : String → String → Option Refusal
  /-- The error of sending on what was written, if that fails. -/
  flushError? : String → Option FileError

/-- A console that takes everything. -/
def Console.working : Console := ⟨fun _ _ => none, fun _ => none⟩

/-- What an action leaves behind. -/
structure Effect (α : Type) where
  tree : FileTree
  printed : String
  traced : Traced α

/-- A computation that starts from a file tree. -/
def Action (α : Type) : Type := FileTree → Effect α

namespace Action

variable {α β : Type}

/-- The action that only gives a value. -/
def pure (a : α) : Action α := fun t => ⟨t, "", .pure a⟩

/-- One action after another; a failure ends it. -/
def bind (x : Action α) (f : α → Action β) : Action β := fun t =>
  let first := x t
  match first.traced.outcome with
  | .ok a =>
    let second := f a first.tree
    ⟨second.tree, first.printed ++ second.printed,
      ⟨first.traced.events ++ second.traced.events, second.traced.outcome⟩⟩
  | .error e => ⟨first.tree, first.printed, ⟨first.traced.events, .error e⟩⟩

instance : Monad Action where
  pure := pure
  bind := bind

/-- The action of an outcome that is known. -/
def ofExcept (outcome : Except Failure α) : Action α := fun t => ⟨t, "", .ofExcept outcome⟩

/-- Looks at the tree. -/
def look (f : FileTree → Traced α) : Action α := fun t => ⟨t, "", f t⟩

/-- A traced computation that needs no tree. -/
def ofTraced (x : Traced α) : Action α := fun t => ⟨t, "", x⟩

/-- Prints a text, as a program does that ends on the spot if it cannot. -/
def print (text : String) : Action Unit := fun t => ⟨t, text, .pure ()⟩

/-- Prints a text and a line end. -/
def printLine (text : String) : Action Unit := print (text ++ "\n")

/-- Writes a text to a console behind what was written before, and gives all that is written then; a
refusal is put into a context. -/
def write (console : Console) (context before text : String) : Action String := fun t =>
  match console.refusal? before text with
  | none => ⟨t, text, .pure (before ++ text)⟩
  | some refusal =>
    ⟨t, String.ofList (text.toList.take refusal.taken), .fail ⟨[context], .file refusal.error⟩⟩

/-- Writes lines to a console, one after another. -/
def writeLines (console : Console) (context before : String) : List String → Action String
  | [] => pure before
  | line :: rest =>
    bind (write console context before (line ++ "\n")) fun written =>
      writeLines console context written rest

/-- Has a console send on what was written. -/
def flush (console : Console) (context written : String) : Action Unit :=
  match console.flushError? written with
  | none => pure ()
  | some e => ofTraced (.fail ⟨[context], .file e⟩)

/-- Writes a message to the log. -/
def log (level : Level) (component : Component) (text : String) : Action Unit :=
  ofTraced (.log level component text)

/-- Says a line on the error stream. -/
def remarkLine (text : String) : Action Unit := ofTraced (.remark (text ++ "\n"))

/-- Fails. -/
def fail (f : Failure) : Action α := ofTraced (.fail f)

/-- Changes the tree; an error is put into a context. -/
def change (context : String) (f : FileTree → Except FileError FileTree) : Action Unit := fun t =>
  match f t with
  | .ok t => ⟨t, "", .pure ()⟩
  | .error e => ⟨t, "", .fail ⟨[context], .file e⟩⟩

/-- Does something to the tree that can fail half-way; an error is put into a context. -/
def perform (context : String) (f : FileTree → FileTree × Except FileError α) : Action α := fun t =>
  let (t, outcome) := f t
  ⟨t, "", .ofExcept (Except.within context .file outcome)⟩

/-- Makes a directory with the parents that are missing. -/
def makeDirectories (context : String) (path : String) : Action Unit :=
  perform context (·.makeDirectories path)

/-- Makes the directory that a path lies in. -/
def makeParent (path : String) : Action Unit :=
  match PathText.parent? path with
  | some parent =>
    if parent.isEmpty then pure () else makeDirectories ("create directory: " ++ parent) parent
  | none => pure ()

/-- Writes a file whose directory is made on demand; `what` names it in an error. -/
def writeFile (what path content : String) : Action Unit := do
  makeParent path
  change (what ++ ": " ++ path) (·.write path (Octets.ofText content))

/-- Names the context of an action, in case it fails. -/
def within (context : String) (x : Action α) : Action α := fun t =>
  let effect := x t
  { effect with traced := effect.traced.within context }

/-- An action whose failure is a value. -/
def attempt (x : Action α) : Action (Except Failure α) := fun t =>
  let effect := x t
  ⟨effect.tree, effect.printed, ⟨effect.traced.events, .ok effect.traced.outcome⟩⟩

end Action

end ParseAudit
