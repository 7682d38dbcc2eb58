import ParseAudit.Script.Field
import ParseAudit.Script.Format
import ParseAudit.Script.Options
import ParseAudit.Script.Signal
import ParseAudit.Script.Test
/-!
# Builtin commands

The commands that work on the state of the script itself, as far as they run no other command.  A
fault of one of them ends the script only if the command is a special one.
-/

namespace ParseAudit.Script.Builtin

/-- The natural number of 31 bits that an argument gives, perhaps between blanks. -/
def number (arg : List Char) : Exec Nat :=
  match integer? arg with
  | some n =>
    if 0 ≤ n && n < 2147483648 then return n.toNat
    else Exec.fault (ofText "Illegal number: " ++ arg)
  | none => Exec.fault (ofText "Illegal number: " ++ arg)

/-- A value between quotes; quotes that are part of it stand between other ones. -/
def inSingleQuotes (value : List Char) : List Char :=
  let isQuote := fun (c : Char) => c == '\''
  let runs := value.splitBy fun a b => isQuote a == isQuote b
  let text := runs.flatMap fun run =>
    if run.all isQuote then '"' :: run ++ ['"'] else '\'' :: run ++ ['\'']
  if value.head?.all isQuote then '\'' :: '\'' :: text else text

/-! ## Variables -/

/-- Stops at a name that no variable can have. -/
def checkName (name : List Char) : Exec Unit := do
  if !isName name then Exec.fault (name ++ ofText ": bad variable name")

/-- The variables in order, each with its value if it has one. -/
def listing (sh : Shell) : List (List Char × Variable) :=
  sh.bindings.mergeSort fun a b => !decide (b.1 < a.1)

/-- Shows a variable. -/
def shown (start : List Char) (name : List Char) (v : Variable) : List Char :=
  let value := match v.value with
    | some value => '=' :: inSingleQuotes value
    | none => []
  start ++ name ++ value ++ ['\n']

/-- Does something to each variable of a list, after it was given the value that comes with it. -/
def eachVariable (args : List (List Char)) (change : List Char → Exec Unit) : Exec Unit :=
  for arg in args do
    match Chars.splitFirst ['='] arg with
    | some (name, value) =>
      checkName name
      Exec.assign name value
      change name
    | none =>
      checkName arg
      change arg

/-- Marks variables, or shows the ones that are marked. -/
def mark (verb : String) (isMarked : Variable → Bool) (change : Variable → Variable)
    (args : List (List Char)) : Exec Unit := do
  let (options, args) ← Options.read ['p'] args
  if args.isEmpty || !options.isEmpty then
    for (name, v) in listing (← get) do
      if isMarked v then Exec.print (shown (ofText (verb ++ " ")) name v)
  else
    eachVariable args fun name => modify fun sh =>
      sh.setVariable name (change ((sh.bindings.lookup name).getD ⟨none, false, false⟩))
  Exec.setStatus 0

/-- Runs `local`. -/
def declareLocal (args : List (List Char)) : Exec Unit := do
  for arg in args do
    let name := arg.takeWhile (· != '=')
    match (← get).hidden with
    | [] => Exec.fault (ofText "not in a function")
    | inner :: outer =>
      checkName name
      -- What was there before comes back at the end of the function.
      if (inner.lookup name).isNone then
        modify fun sh => { sh with hidden := ((name, sh.bindings.lookup name) :: inner) :: outer }
      if arg != name then Exec.assign name (arg.drop (name.length + 1))
  Exec.setStatus 0

/-- Runs `unset`. -/
def unset (args : List (List Char)) : Exec Unit := do
  let (options, names) ← Options.read ['f', 'v'] args
  for name in names do
    if options.contains 'f' then
      modify fun sh => { sh with functions := sh.functions.filter (·.1 != name) }
    else
      checkName name
      if (← get).isReadonly name then Exec.fault (name ++ ofText ": is read only")
      modify (·.dropVariable name)
  Exec.setStatus 0

/-- Runs `set`. -/
def setArgs (args : List (List Char)) : Exec Unit := do
  if args.isEmpty then
    for (name, v) in listing (← get) do
      if v.value.isSome then Exec.print (shown [] name v)
  else
    let rest ← Options.follow false args
    if rest.isEnded || !rest.args.isEmpty then
      modify ({ · with args := rest.args, optionAt := (1, none) })
  Exec.setStatus 0

/-- Runs `shift`. -/
def shift (args : List (List Char)) : Exec Unit := do
  let n ← match args with
    | arg :: _ => number arg
    | [] => pure 1
  let sh ← get
  if sh.args.length < n then Exec.fault (ofText "can't shift that many")
  set { sh with args := sh.args.drop n, status := 0 }

/-! ## Reading -/

/-- Cuts the next line off a text.  Unless it is taken literally, a backslash frees the character
behind it, and joins two lines.  Gives the line, what follows it, and whether the line has an
end. -/
def nextLine (isLiteral : Bool) : List Char → List LineChar × List Char × Bool
  | [] => ([], [], false)
  | '\n' :: rest => ([], rest, true)
  | '\\' :: c :: rest =>
    if isLiteral then
      if c == '\n' then ([('\\', false)], rest, true)
      else
        let (line, behind, ends) := nextLine isLiteral rest
        (('\\', false) :: (c, false) :: line, behind, ends)
    else
      let (line, behind, ends) := nextLine isLiteral rest
      (if c == '\n' then line else (c, true) :: line, behind, ends)
  | c :: rest =>
    let (line, behind, ends) := nextLine isLiteral rest
    (if c == '\\' && !isLiteral then line else (c, false) :: line, behind, ends)

/-- Runs `read`. -/
def readLine (args : List (List Char)) : Exec Unit := do
  let (options, names) ← Options.read ['p', 'r'] args
  -- The first argument behind the options is a prompt, which no script shows.
  let names := if options.contains 'p' then names.tail else names
  if names.isEmpty then Exec.fault (ofText "arg count")
  let sh ← get
  let (line, rest, hasEnd) := nextLine (options.contains 'r') (sh.readable 0)
  set (sh.leave 0 rest)
  let values := splitLine sh.separators names.length (line.filter (·.1 != '\x00'))
  for (name, n) in names.zipIdx do
    checkName name
    Exec.assign name (values[n]?.getD [])
  Exec.answer hasEnd

/-! ## Scanning for options -/

/-- The start of a scan within the arguments: the letters that are left of one of them, and how many
arguments were passed.  There is nothing if the options are over. -/
def optionStart (args : List (List Char)) (place : Nat × Option Nat) :
    Option (List Char) × Nat :=
  let (index, offset) := place
  let left := match offset with
    | some n => if index ≤ 1 then [] else (args[index - 2]?.getD []).drop n
    | none => []
  if !left.isEmpty then (some left, index - 1)
  else
    match args[index - 1]? with
    | some ['-', '-'] => (none, index)
    | some ('-' :: c :: letters) => (some (c :: letters), index)
    | _ => (none, index - 1)

/-- Sets the variables that tell of an option, and where the scan goes on. -/
def foundOption (name letter : List Char) (value : Option (List Char)) (passed : Nat)
    (offset : Option Nat) : Exec Unit := do
  match value with
  | some value => Exec.assign (ofText "OPTARG") value
  | none => modify (·.dropVariable (ofText "OPTARG"))
  modify fun sh =>
    { sh.assign Shell.optionIndex (naturalChars (passed + 1)) with
      optionAt := (passed + 1, offset) }
  checkName name
  Exec.assign name letter

/-- Runs `getopts`. -/
def nextOption (words : List (List Char)) : Exec Unit := do
  match words with
  | allowed :: name :: given =>
    let sh ← get
    let args := if given.isEmpty then sh.args else given
    let isQuiet := allowed.head? == some ':'
    Exec.setStatus 0
    match optionStart args sh.optionAt with
    | (none, passed) =>
      modify fun sh => { sh.assign Shell.optionIndex (naturalChars (passed + 1)) with
        optionAt := (passed + 1, none) }
      checkName name
      Exec.assign name ['?']
      Exec.setStatus 1
    | (some [], _) => Exec.setStatus 1
    | (some (letter :: left), passed) =>
      let offset := if left.isEmpty then none
        else some ((args[passed - 1]?.getD []).length - left.length)
      match if letter == ':' then [] else allowed.dropWhile (· != letter) with
      | [] =>
        if !isQuiet then Exec.remark (ofText "Illegal option -" ++ [letter])
        foundOption name ['?'] (if isQuiet then some [letter] else none) passed offset
      | _ :: ':' :: _ =>
        match left, args[passed]? with
        | [], none =>
          if !isQuiet then Exec.remark (ofText "No arg for -" ++ letter :: ofText " option")
          foundOption name [if isQuiet then ':' else '?'] (if isQuiet then some [letter] else none)
            passed none
        | [], some value => foundOption name [letter] (some value) (passed + 1) none
        | left, _ => foundOption name [letter] (some left) passed none
      | _ => foundOption name [letter] (some []) passed offset
  | _ => Exec.fault (ofText "Usage: getopts optstring var [arg...]")

/-! ## Directories -/

/-- The path without `.` and `..` that leads from a directory to another one. -/
def joinedPath (directory path : List Char) : List Char :=
  let segments := fun (s : List Char) => s.splitOnP (· == '/')
  let start := if path.head? == some '/' then [] else segments directory
  let names := (start ++ segments path).foldl (fun names segment =>
    if segment.isEmpty || segment == ['.'] then names
    else if segment == ['.', '.'] then names.tail
    else segment :: names) []
  '/' :: ['/'].intercalate names.reverse

/-- Runs `cd`. -/
def changeDirectory (args : List (List Char)) : Exec Unit := do
  let (options, args) ← Options.read ['L', 'P'] args
  let sh ← get
  let target := match args with
    | ['-'] :: _ => sh.binding? (ofText "OLDPWD")
    | target :: _ => some target
    | [] => sh.binding? (ofText "HOME")
  let path := joinedPath sh.path (target.getD [])
  match sh.tree.spotAt (toOctets path) with
  | .ok (.found place (.directory _)) =>
    let moved := { sh with tree := { sh.tree with directory := place } }
    let path := if options.getLast? == some 'P' then moved.truePath else path
    let moved := { moved with path := path }
    let exported := fun (value : List Char) => (⟨some value, true, false⟩ : Variable)
    set ((moved.setVariable (ofText "OLDPWD") (exported sh.path)).setVariable
      Shell.directoryName (exported path))
    if args.head? == some ['-'] then Exec.printLine path
    Exec.setStatus 0
  | _ => Exec.fault (ofText "can't cd to " ++ target.getD [])

/-- Runs `pwd`. -/
def printDirectory (args : List (List Char)) : Exec Unit := do
  let (options, _) ← Options.read ['L', 'P'] args
  let sh ← get
  Exec.printLine (if options.getLast? == some 'P' then sh.truePath else sh.path)
  Exec.setStatus 0

/-! ## The flow of control -/

/-- Runs `exit`. -/
def exit (args : List (List Char)) : Exec Unit := do
  match args, (← get).trapped with
  | arg :: _, _ => Exec.setStatus (← number arg)
  | [], some status => Exec.setStatus status
  | [], none => pure ()
  throw .exit

/-- Runs `return`. -/
def back (args : List (List Char)) : Exec Unit := do
  if let arg :: _ := args then Exec.setStatus (← number arg)
  throw .back

/-- Runs `break` or `continue`. -/
def leaveLoops (stop : Nat → Stop) (args : List (List Char)) : Exec Unit := do
  let n ← match args with
    | arg :: _ => number arg
    | [] => pure 1
  if n = 0 then Exec.fault (ofText "Illegal number: " ++ args.headD [])
  Exec.setStatus 0
  let n := min n (← get).loops
  if n > 0 then throw (stop n)

/-! ## Signals and processes -/

/-- Runs `trap`. -/
def trap (args : List (List Char)) : Exec Unit := do
  let (_, args) ← Options.read [] args
  let sh ← get
  Exec.setStatus 0
  match args with
  | [] =>
    for name in Signal.names do
      if let some action := sh.traps.lookup name then
        Exec.printLine (ofText "trap -- " ++ inSingleQuotes action ++ ofText (" " ++ name))
  | first :: others =>
    let isSignal := others.isEmpty || (Signal.ofDigits? first).isSome
    let action := if isSignal || first == ['-'] then none else some first
    setAll action (if isSignal then args else others)
where
  /-- Gives the signals their action. -/
  setAll (action : Option (List Char)) : List (List Char) → Exec Unit
    | [] => return ()
    | arg :: args => do
      match Signal.read? true arg with
      | some n =>
        let name := Signal.name n
        modify fun sh =>
          let others := sh.traps.filter (·.1 != name)
          { sh with traps := (action.map (name, ·)).toList ++ others }
        setAll action args
      | none =>
        Exec.remark (ofText "trap: " ++ arg ++ ofText ": bad trap")
        Exec.setStatus 1

/-- How to use `kill`. -/
def killUsage : List Char :=
  ofText ("Usage: kill [-s sigspec | -signum | -sigspec] [pid | job]... or\n"
    ++ "kill -l [exitstatus]")

/-- Shows the names of signals. -/
def listSignals (args : List (List Char)) : Exec Unit := do
  match args with
  | [] => Exec.print (('0' :: '\n' :: Signal.names.tail.flatMap fun name => ofText (name ++ "\n")))
  | arg :: _ =>
    let n ← number arg
    let n := if n > 128 then n - 128 else n
    if 0 < n && n < Signal.count then Exec.printLine (ofText (Signal.name n))
    else Exec.fault (ofText "invalid signal number or exit status: " ++ arg)
  Exec.setStatus 0

/-- Sends a signal to processes, given how the action of a trap is done. -/
def send (perform : List Char → Exec Unit) (signal : Nat) (processes : List (List Char)) :
    Exec Unit := do
  if processes.isEmpty then Exec.fault killUsage
  Exec.setStatus 0
  for process in processes do
    let n ← number process
    if n = Shell.processNumber then
      Exec.setStatus 0
      Signal.receive perform signal
    else if n != Shell.besideNumber || (← get).besideStatus.isNone then
      Exec.complain (ofText "No such process\n") 1

/-- Runs `kill`, given how the action of a trap is done. -/
def kill (perform : List Char → Exec Unit) (args : List (List Char)) : Exec Unit := do
  match args with
  | ('-' :: text) :: rest =>
    match Signal.read? false text, text, rest with
    | some n, _, _ => send perform n rest
    | none, ['l'], _ => listSignals rest
    | none, ['s'], name :: rest =>
      match Signal.read? false name with
      | some n => send perform n rest
      | none => Exec.fault (ofText "invalid signal number or name: " ++ name)
    | none, ['-'], _ => send perform 15 rest
    | none, _, _ => Options.refuse ('-' :: text.take 1)
  | args => send perform 15 args

/-- Runs `wait`. -/
def wait (args : List (List Char)) : Exec Unit := do
  Exec.setStatus 0
  for arg in args do
    let n ← number arg
    let status := (← get).besideStatus
    Exec.setStatus (if n = Shell.besideNumber then status.getD 127 else 127)

/-! ## Limits of processes -/

/-- The rights that a mask leaves to one of owner, group and others, by its octal digit. -/
def rights (digit : Nat) : String :=
  String.join ([("r", 4), ("w", 2), ("x", 1)].map fun (right, bit) =>
    if Nat.land digit bit == 0 then right else "")

/-- Runs `umask`. -/
def mask (args : List (List Char)) : Exec Unit := do
  let (options, args) ← Options.read ['S'] args
  let n := (← get).mask
  match args with
  | [] =>
    if options.isEmpty then
      Exec.printLine (Format.padZeros 4 (Nat.toDigits 8 n))
    else
      Exec.printLine (ofText ("u=" ++ rights (n / 64) ++ ",g=" ++ rights (n / 8) ++ ",o="
        ++ rights n))
  | arg :: _ =>
    if !arg.head?.any Char.isDigit then Exec.fault (ofText "Illegal mode: " ++ arg)
    match readDigits 8 arg with
    | some (n, []) => modify ({ · with mask := n % 512 })
    | _ => Exec.fault (ofText "Illegal number: " ++ arg)
  Exec.setStatus 0

/-- Runs `ulimit`.  No limits are kept. -/
def limit (args : List (List Char)) : Exec Unit := do
  if args.all (·.head? == some '-') then Exec.printLine (ofText "unlimited")
  Exec.setStatus 0

/-! ## All of them -/

/-- The builtin commands that run no other command. -/
def find? (name : String) : Option (List (List Char) → Exec Unit) :=
  match name with
  | ":" | "true" | "hash" | "jobs" | "alias" | "unalias" => some fun _ => Exec.setStatus 0
  | "false" => some fun _ => Exec.setStatus 1
  | "echo" => some fun args => do
    Exec.print (Format.echo args)
    Exec.setStatus 0
  | "printf" => some Format.printf
  | "test" | "[" => some (Test.run name.toList)
  | "export" => some (mark name Variable.exported ({ · with exported := true }))
  | "readonly" => some (mark name Variable.readonly ({ · with readonly := true }))
  | "local" => some declareLocal
  | "unset" => some unset
  | "set" => some setArgs
  | "shift" => some shift
  | "read" => some readLine
  | "getopts" => some nextOption
  | "cd" | "chdir" => some changeDirectory
  | "pwd" => some printDirectory
  | "exit" => some exit
  | "return" => some back
  | "break" => some (leaveLoops .leave)
  | "continue" => some (leaveLoops .again)
  | "trap" => some trap
  | "wait" => some wait
  | "umask" => some mask
  | "ulimit" => some limit
  | _ => none

end ParseAudit.Script.Builtin
