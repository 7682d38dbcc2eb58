import ParseAudit.Script.Builtin
import ParseAudit.Script.Program
/-!
# Calls

A simple command calls a function, a builtin command or a program, whichever is found first under
its name.  Its redirections are done before, and its assignments last as long as the call; those in
front of a special builtin command, or of nothing, stay.
-/

namespace ParseAudit.Script.Call

/-! ## Functions -/

/-- Brings back the variables that a function hid. -/
def unhide : List (List Char × Option Variable) → Exec Unit
  | [] => return ()
  | (name, former) :: rest => do
    modify fun sh => match former with
      | some v => sh.setVariable name v
      | none => sh.dropVariable name
    unhide rest

/-- How many functions can run within each other. -/
def functionLimit : Nat := 1000

/-- Calls a function: its body runs with other arguments and outside of all loops. -/
def callFunction (run : Runner) (tested : Bool) (body : Command) (args : List (List Char)) :
    Exec Unit := do
  let before ← get
  if before.hidden.length = functionLimit then
    Exec.fault (ofText ("Maximum function recursion depth (" ++ Text.natural functionLimit
      ++ ") reached"))
  set { before with
    args := args, optionAt := (1, none), loops := 0, hidden := [] :: before.hidden }
  let stop ← Exec.attempt (run tested body)
  unhide ((← get).hidden.headD [])
  modify ({ · with
    args := before.args, optionAt := before.optionAt, loops := before.loops
    hidden := before.hidden })
  match stop with
  | none | some .back => return ()
  | some stop => throw stop

/-! ## Builtin commands that run others -/

/-- The path of a file that is named by its path, or lies in a directory for programs. -/
def sourcePath? (sh : Shell) (name : List Char) : Option (List Char) :=
  if name.contains '/' then some name
  else ((Program.directories sh).map (· ++ '/' :: name)).find? fun path =>
    (sh.contentOf path).toOption.isSome

/-- Runs the text of a file in the script itself. -/
def source (run : Runner) (args : List (List Char)) : Exec Unit := do
  match args with
  | [] => Exec.setStatus 0
  | name :: _ =>
    let sh ← get
    match sourcePath? sh name with
    | none => Exec.fault (name ++ ofText ": not found")
    | some path =>
      match sh.contentOf path with
      | .error _ => Exec.fault (ofText "cannot open " ++ path ++ ofText ": No such file")
      | .ok text =>
        modify ({ · with speaker := some path })
        match ← Exec.attempt (Process.runText run false text) with
        | none | some .back => return ()
        | some stop => throw stop

/-- Runs a program in the place of the script, if one is named. -/
def replace (run : Runner) (args : List (List Char)) : Exec Unit :=
  match args with
  | [] => Exec.setStatus 0
  | name :: args => Program.replace run name args

/-- What kind of a command a name stands for; `none` if it stands for nothing. -/
def describe? (sh : Shell) (name : List Char) : Option String :=
  let text := toText name
  if reservedWords.contains name then some " is a shell keyword"
  else if (sh.functions.lookup name).isSome then some " is a shell function"
  else if Reading.specialNames.contains text then some " is a special shell builtin"
  else if (Builtin.find? text).isSome || ["command", "kill", "type"].contains text then
    some " is a shell builtin"
  else (Program.locate sh name).toOption.map fun (path, _) => " is " ++ toText path

/-- Tells what kinds of commands names stand for. -/
def tellKinds (names : List (List Char)) : Exec Unit := do
  Exec.setStatus 0
  for name in names do
    match describe? (← get) name with
    | some text => Exec.printLine (name ++ ofText text)
    | none =>
      Exec.printLine (name ++ ofText ": not found")
      Exec.setStatus 127

/-- Tells where the command of a name is found. -/
def tellPlace (name : List Char) : Exec Unit := do
  let sh ← get
  match describe? sh name with
  | none => Exec.setStatus 127
  | some text =>
    let place := (Text.stripStart? " is /" text).map fun path => '/' :: ofText path
    Exec.printLine (place.getD name)
    Exec.setStatus 0

/-- Runs `command` where it only tells something about a command. -/
def tell (args : List (List Char)) : Exec Unit := do
  let (options, names) ← Options.read ['p', 'v', 'V'] args
  Exec.setStatus 0
  match names with
  | [] => return ()
  | name :: _ => if options.contains 'V' then tellKinds [name] else tellPlace name

/-- A builtin command by its name. -/
def builtin? (run : Runner) (tested : Bool) (name : String) :
    Option (List (List Char) → Exec Unit) :=
  match name with
  | "eval" => some fun args => Process.runText run tested ([' '].intercalate args)
  | "." => some (source run)
  | "exec" => some (replace run)
  | "command" => some tell
  | "type" => some tellKinds
  | "kill" => some (Builtin.kill (Process.perform run))
  | "times" => some fun _ => do
    Exec.printLine (ofText "0m0.000000s 0m0.000000s")
    Exec.printLine (ofText "0m0.000000s 0m0.000000s")
    Exec.setStatus 0
  | name => Builtin.find? name

/-- Calls a builtin command.  A fault of one that is not special does not stop the script. -/
def callBuiltin (name : List Char) (isSpecial : Bool) (body : Exec Unit) : Exec Unit := do
  let speaker := (← get).speaker
  modify ({ · with speaker := some name, lost := false })
  let stop ← Exec.attempt body
  if (← get).lost then Exec.complain (name ++ ofText ": I/O error") 1
  modify ({ · with speaker := speaker, lost := false })
  match stop with
  | none => return ()
  | some .fault => if isSpecial then throw .fault
  | some stop => throw stop

/-! ## Simple commands -/

/-- The words of the command that `command` runs: they follow its options, unless these ask about
the command only. -/
def behindCommand? : List (List Char) → Option (List (List Char))
  | ['-', '-'] :: words => if words.isEmpty then none else some words
  | ['-', 'p'] :: words => behindCommand? words
  | ('-' :: _ :: _) :: _ => none
  | [] => none
  | words => some words

/-- What a command calls. -/
inductive Callee where
  | function (body : Command)
  | builtin (isSpecial : Bool) (body : List (List Char) → Exec Unit)
  | program

/-- What the words of a command call, the name and the arguments.  A command that is called by
`command` is no function and not special; the fuel bounds how often that is said. -/
def callee (run : Runner) (tested : Bool) (sh : Shell) :
    Nat → Bool → List Char → List (List Char) → Callee × List Char × List (List Char)
  | fuel, isDirect, name, args =>
    match if isDirect then sh.functions.lookup name else none with
    | some body => (.function body, name, args)
    | none =>
      match fuel, if name == ofText "command" then behindCommand? args else none with
      | fuel + 1, some (name :: args) => callee run tested sh fuel false name args
      | _, _ =>
        match builtin? run tested (toText name) with
        | some body =>
          let isSpecial := Reading.specialNames.contains (toText name) || toText name == "local"
          (.builtin (isSpecial && isDirect) body, name, args)
        | none => (.program, name, args)

/-- The builtin commands whose arguments can be assignments. -/
def declarations : List String := ["export", "readonly", "local"]

/-- The fields of the words of a command.  An assignment to a declared variable is one field. -/
def fieldsOf (e : Expansion) (words : List Word) : Exec (List (List Char)) := do
  match words with
  | [] => return []
  | first :: others =>
    let names ← e.wordFields first
    let isDeclaration := names.head?.any fun name => declarations.contains (toText name)
    if !isDeclaration then return names ++ (← e.fields others)
    let arguments ← others.mapM fun w => do
      match Reading.assignment? w with
      | some (name, value) => return [name ++ '=' :: (← e.text value)]
      | none => e.wordFields w
    return names ++ arguments.flatten

/-- Does assignments one after another, and shows them as a trace does. -/
def assign (e : Expansion) (change : List Char → Variable → Exec Unit) :
    List (List Char × Word) → Exec (List (List Char))
  | [] => return []
  | (name, w) :: rest => do
    let value ← e.text w
    let sh ← get
    if sh.isReadonly name then Exec.fault (name ++ ofText ": is read only")
    let former := (sh.bindings.lookup name).getD ⟨none, false, false⟩
    change name { former with value := some value, exported := former.exported || sh.isOn 'a' }
    return (name ++ '=' :: value) :: (← assign e change rest)

/-- Shows a command before it runs, if that is wanted.  It is shown on the stream for errors as it
was in front of the command. -/
def trace (e : Expansion) (errors : Option Channel) (words : List (List Char)) : Exec Unit := do
  let sh ← get
  if sh.isOn 'x' && !words.isEmpty then
    let start ← match Reading.expandable ((sh.binding? (ofText "PS4")).getD []) with
      -- Commands in it print nothing.
      | .ok w => ({ e with output := fun _ => return [] } : Expansion).text w
      | .error _ => pure []
    if let some channel := errors then
      modify (·.write channel (start ++ [' '].intercalate words ++ ['\n']))

/-- Brings back variables as they were. -/
def restore (names : List (List Char)) (before : Shell) : Exec Unit :=
  unhide (names.map fun name => (name, before.bindings.lookup name))

/-- Calls what was found, after redirections that went well. -/
def enter (run : Runner) (tested : Bool) (e : Expansion) (errors : Option Channel) (found : Callee)
    (assignments : List (List Char × Word)) (name : List Char) (args : List (List Char))
    (fields : List (List Char)) : Exec Unit := do
  let before ← get
  let set := fun (name : List Char) (v : Variable) => do modify (·.setVariable name v)
  let setForCall := fun (name : List Char) (v : Variable) => do
    modify (·.setVariable name { v with exported := true })
  match found with
  | .builtin true body =>
    trace e errors ((← assign e set assignments) ++ fields)
    callBuiltin name true (body args)
  | found =>
    let stop ← Exec.attempt do
      trace e errors ((← assign e setForCall assignments) ++ fields)
      match found with
      | .function body => callFunction run tested body args
      | .builtin _ body => callBuiltin name false (body args)
      | .program => Program.call run name args
    restore (assignments.map Prod.fst) before
    if let some stop := stop then throw stop

/-- Runs a simple command. -/
def simple (run : Runner) (tested : Bool) (e : Expansion) (line : Nat)
    (assignments : List (List Char × Word)) (words : List Word) (redirects : List Redirect) :
    Exec Unit := do
  modify ({ · with line := line, outputStatus := 0 })
  let errors := (← get).streams.lookup 2
  match ← fieldsOf e words with
  | [] =>
    Exec.keepingStreams do
      if ← Redirection.applyAll e redirects then
        let set := fun (name : List Char) (v : Variable) => do modify (·.setVariable name v)
        trace e errors (← assign e set assignments)
        Exec.setStatus (← get).outputStatus
  | name :: args =>
    let fields := name :: args
    let (found, name, args) := callee run tested (← get) fields.length true name args
    let isSpecial := match found with
      | .builtin isSpecial _ => isSpecial
      | _ => false
    let body := do
      if ← Redirection.applyAll e redirects then
        enter run tested e errors found assignments name args fields
      else if isSpecial then throw .fault
    -- The redirections of `exec` stay.
    if toText name == "exec" && isSpecial then body else Exec.keepingStreams body

end ParseAudit.Script.Call
