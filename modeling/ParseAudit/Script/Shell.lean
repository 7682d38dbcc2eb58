import ParseAudit.Script.Syntax
import ParseAudit.Tree.Change
/-!
# The state of a running script

A script has variables, functions, arguments and the status of its last command; it reads and
changes the file tree, and it reads from and writes to numbered streams.  A computation of a script
is an `Exec`: it works on that state, and it may stop before its end.
-/

namespace ParseAudit.Script

/-- A variable.  One without a value may still be marked. -/
structure Variable where
  value : Option (List Char)
  exported : Bool
  readonly : Bool

/-- Where a stream leads. -/
inductive Channel where
  /-- A store that takes what is written. -/
  | outlet (id : Nat)
  /-- A store of what can be read. -/
  | inlet (id : Nat)
  /-- A file that is written to, by the names on the way to it. -/
  | file (place : List FileName)
  /-- What is written is dropped, and nothing can be read. -/
  | nowhere

/-- The state of a script. -/
structure Shell where
  /-- The tree, seen from the directory that the script runs in. -/
  tree : FileTree
  /-- The path of that directory, by the names that led there. -/
  path : List Char
  /-- The variables, the latest first. -/
  bindings : List (List Char × Variable)
  functions : List (List Char × Command)
  /-- The variables that functions hide, the innermost function first. -/
  hidden : List (List (List Char × Option Variable))
  /-- What the script itself is called. -/
  name : List Char
  args : List (List Char)
  /-- Which argument is scanned for options next, and how far the one before it was scanned. -/
  optionAt : Nat × Option Nat
  /-- The status of the last command. -/
  status : Nat
  /-- The status of the last command whose output was meant. -/
  outputStatus : Nat
  /-- The status of the command that was last started beside the script. -/
  besideStatus : Option Nat
  /-- The line of the command that runs. -/
  line : Nat
  /-- The builtin command that runs, if one does. -/
  speaker : Option (List Char)
  /-- How many loops the current command stands in, within its function. -/
  loops : Nat
  /-- The letters of the options that are on. -/
  options : List Char
  /-- The rights that new files do not get, as a number of three octal digits. -/
  mask : Nat
  /-- What is run on a signal, or at the exit, by its name. -/
  traps : List (String × List Char)
  /-- The status from before, while the action of a trap runs. -/
  trapped : Option Nat
  /-- Whether something was printed while the standard output was closed. -/
  lost : Bool
  streams : List (Nat × Channel)
  /-- What was written to each store, the latest first. -/
  outlets : List (Nat × List (List Char))
  /-- What is left in each store. -/
  inlets : List (Nat × List Char)
  /-- The next number of a store. -/
  fresh : Nat

/-- Why a computation stops before its end. -/
inductive Stop where
  /-- Some loops are left. -/
  | leave (loops : Nat)
  /-- The next round of an outer loop starts. -/
  | again (loops : Nat)
  /-- A function is left. -/
  | back
  /-- The script ends. -/
  | exit
  /-- Something is wrong that ends the script, unless a command handles it. -/
  | fault
  /-- The script was killed by a signal. -/
  | killed (signal : Nat)
  deriving DecidableEq

/-- A computation of a script. -/
abbrev Exec := ExceptT Stop (StateM Shell)

/-- The decimal digits of a number. -/
def naturalChars (n : Nat) : List Char := Nat.toDigits 10 n

/-- The decimal digits of a number, with its sign. -/
def integerChars (n : Int) : List Char :=
  if n < 0 then '-' :: naturalChars n.natAbs else naturalChars n.natAbs

namespace Shell

/-- The process number that scripts see. -/
def processNumber : Nat := 4711

/-- The process number of commands that run beside the script. -/
def besideNumber : Nat := 4712

/-- The options by name and letter, in the order in which they are listed. -/
def optionTable : List (String × Char) := [
  ("errexit", 'e'), ("noglob", 'f'), ("ignoreeof", 'I'), ("interactive", 'i'), ("monitor", 'm'),
  ("noexec", 'n'), ("stdin", 's'), ("xtrace", 'x'), ("verbose", 'v'), ("vi", 'V'),
  ("emacs", 'E'), ("noclobber", 'C'), ("allexport", 'a'), ("notify", 'b'), ("nounset", 'u'),
  ("privileged", 'p')]

/-- Whether an option is on. -/
def isOn (sh : Shell) (option : Char) : Bool := sh.options.contains option

/-- The letters of the options that are on, the last one of the list first. -/
def optionLetters (sh : Shell) : List Char :=
  (optionTable.map Prod.snd).reverse.filter sh.isOn

/-- The value of a variable, if it has one. -/
def binding? (sh : Shell) (name : List Char) : Option (List Char) :=
  (sh.bindings.lookup name).bind Variable.value

/-- The value of a parameter that is not a list, if it is set. -/
def value? (sh : Shell) (name : List Char) : Option (List Char) :=
  match name with
  | ['#'] => some (naturalChars sh.args.length)
  | ['?'] => some (naturalChars sh.status)
  | ['$'] => some (naturalChars processNumber)
  | ['-'] => some sh.optionLetters
  | ['!'] => sh.besideStatus.map fun _ => naturalChars besideNumber
  | name =>
    match Chars.natural? name with
    | some 0 => some sh.name
    | some (n + 1) => sh.args[n]?
    | none => sh.binding? name

/-- The variable that tells which argument is scanned for options next. -/
def optionIndex : List Char := ofText "OPTIND"

/-- Puts a variable in the place of one with the same name.  One of them starts a scan for options
anew. -/
def setVariable (sh : Shell) (name : List Char) (v : Variable) : Shell :=
  { sh with
    bindings := (name, v) :: sh.bindings.filter (·.1 != name)
    optionAt := if name == optionIndex then (max 1 ((v.value.bind Chars.natural?).getD 1), none)
      else sh.optionAt }

/-- Drops a variable. -/
def dropVariable (sh : Shell) (name : List Char) : Shell :=
  { sh with bindings := sh.bindings.filter (·.1 != name) }

/-- Gives a value to a variable, marks kept. -/
def assign (sh : Shell) (name value : List Char) : Shell :=
  let v := (sh.bindings.lookup name).getD ⟨none, false, false⟩
  sh.setVariable name { v with value := some value, exported := v.exported || sh.isOn 'a' }

/-- Gives a value to a variable that is not there. -/
def giveDefault (sh : Shell) (setting : String × String) : Shell :=
  let name := ofText setting.1
  if (sh.bindings.lookup name).isSome then sh
  else { sh with bindings := (name, ⟨some (ofText setting.2), false, false⟩) :: sh.bindings }

/-- The directory that the script runs in, without links. -/
def truePath (sh : Shell) : List Char :=
  '/' :: ['/'].intercalate (sh.tree.directory.map ofOctets)

/-- The values that every shell starts with. -/
def startValues : List (String × String) :=
  [("IFS", " \t\n"), ("OPTIND", "1"), ("PPID", "4710")]

/-- The values that a shell starts with unless it is given others. -/
def defaultValues : List (String × String) := [
  ("PATH", "/usr/local/sbin:/usr/local/bin:/usr/sbin:/usr/bin:/sbin:/bin"), ("PS1", "# "),
  ("PS2", "> "), ("PS4", "+ ")]

/-- The variable that tells the directory. -/
def directoryName : List Char := ofText "PWD"

/-- Makes the variables that a shell starts with. -/
def withStartValues (sh : Shell) : Shell :=
  let sh := startValues.foldl (fun sh (name, value) => sh.assign (ofText name) (ofText value)) sh
  let sh := defaultValues.foldl giveDefault sh
  let given := (sh.binding? directoryName).getD []
  let leadsHere := given.head? == some '/' && match sh.tree.spotAt (toOctets given) with
    | .ok (.found place _) => place == sh.tree.directory
    | _ => false
  if leadsHere then { sh with path := given }
  else { sh.setVariable directoryName ⟨some sh.truePath, true, false⟩ with path := sh.truePath }

/-- Whether a variable keeps its value. -/
def isReadonly (sh : Shell) (name : List Char) : Bool :=
  (sh.bindings.lookup name).any Variable.readonly

/-- Leads a stream elsewhere, or closes it. -/
def setStream (sh : Shell) (stream : Nat) (channel : Option Channel) : Shell :=
  let others := sh.streams.filter (·.1 != stream)
  { sh with streams := (channel.map (stream, ·)).toList ++ others }

/-- Makes a store of what can be read. -/
def addInlet (sh : Shell) (text : List Char) : Channel × Shell :=
  (.inlet sh.fresh, { sh with inlets := (sh.fresh, text) :: sh.inlets, fresh := sh.fresh + 1 })

/-- Makes a store for what is written. -/
def addOutlet (sh : Shell) : Nat × Shell :=
  (sh.fresh, { sh with outlets := (sh.fresh, []) :: sh.outlets, fresh := sh.fresh + 1 })

/-- What was written to a store. -/
def written (sh : Shell) (id : Nat) : List Char :=
  ((sh.outlets.lookup id).getD []).reverse.flatten

/-- Writes to a channel. -/
def write (sh : Shell) (channel : Channel) (text : List Char) : Shell :=
  match channel with
  | .outlet id =>
    { sh with outlets := sh.outlets.map fun (n, texts) =>
        (n, if n == id then text :: texts else texts) }
  | .file place =>
    let add := fun (node : FileNode) => match node with
      | .file content executable => .file (content ++ toOctets text) executable
      | node => node
    match place.getLast? with
    | some name =>
      { sh with tree := sh.tree.update place.dropLast fun children =>
          children.map fun (n, node) => (n, if n = name then add node else node) }
    | none => sh
  | .inlet _ | .nowhere => sh

/-- The channel that a device stands for, if a path names one; a closed stream has none. -/
def device? (sh : Shell) (path : List Char) : Option (Option Channel) :=
  match String.ofList path with
  | "/dev/null" => some (some .nowhere)
  | "/dev/stdin" | "/dev/fd/0" => some (sh.streams.lookup 0)
  | "/dev/stdout" | "/dev/fd/1" => some (sh.streams.lookup 1)
  | "/dev/stderr" | "/dev/fd/2" => some (sh.streams.lookup 2)
  | _ => none

/-- What can be read from a stream. -/
def readable (sh : Shell) (stream : Nat) : List Char :=
  match sh.streams.lookup stream with
  | some (.inlet id) => (sh.inlets.lookup id).getD []
  | _ => []

/-- Leaves only some of what can be read from a stream. -/
def leave (sh : Shell) (stream : Nat) (rest : List Char) : Shell :=
  match sh.streams.lookup stream with
  | some (.inlet id) =>
    { sh with inlets := sh.inlets.map fun (n, text) => (n, if n == id then rest else text) }
  | _ => sh

end Shell

namespace Exec

/-- Writes to a stream; a closed one takes nothing. -/
def write (stream : Nat) (text : List Char) : Exec Unit := do
  let sh ← get
  if !text.isEmpty then
    match sh.streams.lookup stream with
    | some channel => set (sh.write channel text)
    | none => set { sh with lost := sh.lost || stream = 1 }

/-- Writes to the standard output. -/
def print (text : List Char) : Exec Unit := write 1 text

/-- Writes a line to the standard output. -/
def printLine (text : List Char) : Exec Unit := write 1 (text ++ ['\n'])

/-- Writes a line to the standard error stream. -/
def remark (text : List Char) : Exec Unit := write 2 (text ++ ['\n'])

/-- Sets the status. -/
def setStatus (status : Nat) : Exec Unit := modify ({ · with status := status })

/-- Sets the status by whether something holds. -/
def answer (holds : Bool) : Exec Unit := setStatus (if holds then 0 else 1)

/-- Says what is wrong, with the name of the script, the line and the builtin command. -/
def complain (text : List Char) (status : Nat) : Exec Unit := do
  let sh ← get
  remark ([':', ' '].intercalate ([sh.name, naturalChars sh.line] ++ sh.speaker.toList ++ [text]))
  setStatus status

/-- Says what is wrong and stops. -/
def fault {α : Type} (text : List Char) : Exec α := do
  complain text 2
  throw .fault

/-- Reads everything that is left of the standard input. -/
def readAll : Exec (List Char) := do
  let sh ← get
  set (sh.leave 0 [])
  return sh.readable 0

/-- Gives a value to a variable. -/
def assign (name value : List Char) : Exec Unit := do
  let sh ← get
  if sh.isReadonly name then fault (name ++ ofText ": is read only")
  set (sh.assign name value)

/-- Runs a computation, and says how it stopped if it did not come to its end. -/
def attempt (body : Exec Unit) : Exec (Option Stop) := do
  tryCatch (do body; return none) fun stop => return some stop

/-- Lets a computation run with the streams as they are now, whatever it does to them. -/
def keepingStreams (body : Exec Unit) : Exec Unit := do
  let streams := (← get).streams
  let stop ← attempt body
  modify ({ · with streams := streams })
  if let some stop := stop then throw stop

/-- Runs a computation that cannot change its surroundings, files and what it writes apart.  Gives
the signal that killed it, if one did. -/
def apartOrKilled (body : Exec Unit) : Exec (Option Nat) := do
  let before ← get
  let stop ← attempt body
  modify fun after =>
    { before with
      tree := { after.tree with directory := before.tree.directory }
      status := after.status % 256
      outlets := after.outlets
      inlets := after.inlets
      fresh := after.fresh }
  match stop with
  | some (.killed signal) => return some signal
  | _ => return none

/-- Runs a computation apart; a signal that kills it kills its surroundings, too. -/
def apart (body : Exec Unit) : Exec Unit := do
  if let some signal ← apartOrKilled body then throw (.killed signal)

/-- What a computation writes to its standard output. -/
def output (body : Exec Unit) : Exec (List Char) := do
  let (id, sh) := (← get).addOutlet
  set sh
  keepingStreams do
    modify (·.setStream 1 (some (.outlet id)))
    body
  let sh ← get
  set { sh with outlets := sh.outlets.filter (·.1 != id) }
  return sh.written id

/-- Runs a computation with a text as its standard input. -/
def withInput (text : List Char) (body : Exec Unit) : Exec Unit := do
  let (channel, sh) := (← get).addInlet text
  set sh
  keepingStreams do
    modify (·.setStream 0 (some channel))
    body

end Exec

end ParseAudit.Script
