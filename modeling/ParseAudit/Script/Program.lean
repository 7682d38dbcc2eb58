import ParseAudit.Script.Options
import ParseAudit.Script.Process
import ParseAudit.Script.Tool.Box
/-!
# Programs

A program is a tool of the system, the shell, or a file that can be run.  It is found by its path,
or by its name in the directories that a variable lists.  Here is how each of them is started.
-/

namespace ParseAudit.Script

/-- A program. -/
inductive Program where
  | tool (t : Tool)
  | shell
  /-- Runs another program with other variables. -/
  | env
  /-- A file that says in its first line which program reads it. -/
  | script (path content : List Char)

namespace Program

/-! ## Finding programs -/

/-- The program of the system with the given name. -/
def ofSystem? (name : String) : Option Program :=
  match name with
  | "sh" | "dash" | "bash" => some .shell
  | "env" => some .env
  | name => (Tool.find? name).map .tool

/-- The directories that hold the programs of a system. -/
def systemDirectories : List String := ["/usr/bin", "/bin"]

/-- The directories in which programs are looked for outside of shells, if there is no variable for
them. -/
def systemPath : String × String := ("PATH", ":".intercalate systemDirectories)

/-- The directories in which programs are looked for. -/
def directories (sh : Shell) : List (List Char) :=
  match sh.binding? (ofText "PATH") with
  | some path => path.splitOnP (· == ':')
  | none => []

/-- The program at a path. -/
def atPath (sh : Shell) (path : List Char) : Except FileError Program :=
  let inSystem := systemDirectories.findSome? fun directory =>
    (Text.stripStart? (directory ++ "/") (toText path)).bind ofSystem?
  match inSystem with
  | some program => .ok program
  | none =>
    match sh.tree.nodeAt (toOctets path) with
    | .ok (.file content true) => .ok (.script path (ofOctets content))
    | .ok _ => .error .permissionDenied
    | .error e => .error e

/-- The program that a name stands for, with its path. -/
def locate (sh : Shell) (name : List Char) : Except FileError (List Char × Program) :=
  if name.contains '/' then (atPath sh name).map (name, ·)
  else
    let found := (directories sh).map fun directory =>
      let path := directory ++ '/' :: name
      (path, if name.isEmpty then .error .notFound else atPath sh path)
    match found.findSome? fun (path, result) => result.toOption.map (path, ·) with
    | some program => .ok program
    | none =>
      let isRefused := found.any fun (_, result) => match result with
        | .error .permissionDenied => true
        | _ => false
      .error (if isRefused then .permissionDenied else .notFound)

/-! ## Running programs -/

/-- Runs the shell by its name with its arguments. -/
def runShell (run : Runner) (name : List Char) (args : List (List Char)) : Exec Unit :=
  Process.finish run do
    modify Shell.withStartValues
    let rest ← Options.follow true args
    let start := fun (name : List Char) (args : List (List Char)) (text : List Char) => do
      modify ({ · with name := name, args := args })
      Process.runText run false text
    match rest.args, rest.isScript with
    | [], true => Exec.fault (ofText "-c requires an argument")
    | text :: args, true => start (args.headD name) args.tail text
    | args, false =>
      match if (← get).isOn 's' then none else args.head? with
      | none => start name args (← Exec.readAll)
      | some file =>
        match (← get).contentOf file with
        | .ok text => start file args.tail text
        | .error .isADirectory => return ()
        | .error e =>
          let reason := if e == .notFound || e == .notADirectory then "No such file"
            else e.description
          Exec.fault (ofText "cannot open " ++ file ++ ofText (": " ++ reason))

/-- The program that a script names in its first line, and the argument behind it.  A script that
names none is read by the shell. -/
def interpreter (content : List Char) : List Char × List (List Char) :=
  match content with
  | '#' :: '!' :: rest =>
    let isBlank := fun (c : Char) => c == ' ' || c == '\t'
    let line := (rest.takeWhile (· != '\n')).dropWhile isBlank
    let path := line.takeWhile (!isBlank ·)
    let argument := (line.drop path.length).dropWhile isBlank
    let argument := (argument.reverse.dropWhile isBlank).reverse
    (path, if argument.isEmpty then [] else [argument])
  | _ => (ofText "/bin/sh", [])

/-- Finds a program and what it does with its arguments; the fuel bounds how often a program stands
for another one. -/
def start (run : Runner) : Nat → List Char → List (List Char) →
    Exec (Except FileError (Exec Unit))
  | 0, _, _ => return .error .tooManyLinks
  | fuel + 1, name, args => do
    match locate (← get) name with
    | .error e => return .error e
    | .ok (_, .tool t) => return .ok (t args)
    | .ok (_, .shell) => return .ok (runShell run name args)
    | .ok (_, .script path content) =>
      let (program, options) := interpreter content
      start run fuel program (options ++ path :: args)
    | .ok (_, .env) => return .ok do
      let (options, words) ← Options.read ['i'] args
      if options.contains 'i' then modify ({ · with bindings := [] })
      let settings := words.takeWhile fun word => word.contains '='
      for word in settings do
        if let some (name, value) := Chars.splitFirst ['='] word then
          modify (·.setVariable name ⟨some value, true, false⟩)
      modify (·.giveDefault systemPath)
      match words.drop settings.length with
      | [] =>
        for (name, v) in (← get).bindings.reverse do
          if v.exported then Exec.printLine (name ++ '=' :: v.value.getD [])
      | name :: args =>
        match ← start run fuel name args with
        | .ok body =>
          modify (Process.started · name args)
          body
        | .error e =>
          Tool.complain "env" (Tool.inQuotes name ++ Tool.reason e)
            (if e = .permissionDenied then 126 else 127)

/-- How often a program can stand for another one. -/
def startLimit : Nat := 20

/-- Says that there is no such program. -/
def refuse (name : List Char) (e : FileError) : Exec Unit :=
  match e with
  | .permissionDenied => Exec.complain (name ++ ofText ": Permission denied") 126
  | _ =>
    -- The name of no program leads to a directory.
    let reason := if name.isEmpty then ": Permission denied" else ": not found"
    Exec.complain (name ++ ofText reason) 127

/-- Calls a program and waits for it. -/
def call (run : Runner) (name : List Char) (args : List (List Char)) : Exec Unit := do
  match ← start run startLimit name args with
  | .ok body => Process.runApart name args body
  | .error e => refuse name e

/-- Runs a program in the place of the script; if there is none, the script ends. -/
def replace (run : Runner) (name : List Char) (args : List (List Char)) : Exec Unit := do
  match ← start run startLimit name args with
  | .ok body =>
    modify (Process.started · name args)
    body
  | .error e => refuse name e
  throw .exit

end Program

end ParseAudit.Script
