import ParseAudit.Script.Expression
import ParseAudit.Script.Tool.Basic
/-!
# Editing lines

`sed` takes the lines of its inputs one after another and applies commands to those that are
addressed: it replaces parts of a line, shows it or drops it.
-/

namespace ParseAudit.Script.Tool

/-- Which lines a command is for. -/
inductive Address where
  | line (n : Nat)
  | last
  | found (e : Expression)

/-- A piece of a replacement. -/
inductive Replacement where
  | char (c : Char)
  /-- What a group took; the group zero is the whole match. -/
  | group (n : Nat)

/-- What is done to a line. -/
inductive Edit where
  | substitute (e : Expression) (replacement : List Replacement) (ignoreCase isGlobal shows : Bool)
      (skipped : Nat)
  | translate (source target : List Char)
  | print
  | showNumber
  | delete
  | quit
  | insert (text : List Char)
  | append (text : List Char)
  | change (text : List Char)

/-- A command: its addresses, whether it is for all other lines, and what it does. -/
structure EditCommand where
  addresses : List Address
  inverted : Bool
  edit : Edit

/-! ## Reading commands -/

/-- Reads up to a separator, which a backslash takes its meaning from. -/
def untilSeparator (separator : Char) : List Char → Option (List Char × List Char)
  | [] => none
  | '\\' :: c :: rest =>
    (untilSeparator separator rest).map fun (text, behind) =>
      ((if c == separator then [c] else ['\\', c]) ++ text, behind)
  | c :: rest =>
    if c == separator then some ([], rest)
    else (untilSeparator separator rest).map fun (text, behind) => (c :: text, behind)

/-- Reads a replacement. -/
def replacementOf : List Char → List Replacement
  | '\\' :: c :: rest =>
    (if c.isDigit then .group ((digitValue? c).getD 0)
      else if c == 'n' then .char '\n'
      else if c == 't' then .char '\t'
      else .char c) :: replacementOf rest
  | '&' :: rest => .group 0 :: replacementOf rest
  | c :: rest => .char c :: replacementOf rest
  | [] => []

/-- Reads an address. -/
def readAddress (extended : Bool) (s : List Char) : Option (Address × List Char) :=
  match s with
  | '$' :: rest => some (.last, rest)
  | '/' :: rest => do
    let (source, rest) ← untilSeparator '/' rest
    return (.found (← Expression.parse? extended source), rest)
  | s =>
    let digits := s.takeWhile Char.isDigit
    (Chars.natural? digits).map fun n => (.line n, s.drop digits.length)

/-- Reads the flags of a substitution: letters, and the number of the match that is meant. -/
def withFlags (edit : Bool → Bool → Bool → Nat → Edit) (s : List Char) : Edit × List Char :=
  let flags := s.takeWhile fun c => c.isDigit || ['g', 'p', 'i', 'I'].contains c
  let number := (Chars.natural? (flags.filter Char.isDigit)).getD 1
  (edit (flags.contains 'i' || flags.contains 'I') (flags.contains 'g') (flags.contains 'p')
    (number - 1), s.drop flags.length)

/-- The text behind a command that takes the rest of its line. -/
def lineText (s : List Char) : List Char × List Char :=
  let line := s.takeWhile (· != '\n')
  let text := match line with
    | ['\\'] => ((s.drop 2).takeWhile (· != '\n'))
    | line => withoutSpace line
  let used := if line == ['\\'] then text.length + 2 else line.length
  (text, s.drop used)

/-- Reads what a command does. -/
def readEdit (extended : Bool) (s : List Char) : Option (Edit × List Char) :=
  match s with
  | 's' :: separator :: rest => do
    let (source, rest) ← untilSeparator separator rest
    let (replacement, rest) ← untilSeparator separator rest
    let e ← Expression.parse? extended source
    return withFlags (Edit.substitute e (replacementOf replacement)) rest
  | 'y' :: separator :: rest => do
    let (source, rest) ← untilSeparator separator rest
    let (target, rest) ← untilSeparator separator rest
    if source.length == target.length then some (.translate source target, rest) else none
  | 'p' :: rest => some (.print, rest)
  | '=' :: rest => some (.showNumber, rest)
  | 'd' :: rest => some (.delete, rest)
  | 'q' :: rest => some (.quit, rest)
  | 'i' :: rest => let (text, rest) := lineText rest; some (.insert text, rest)
  | 'a' :: rest => let (text, rest) := lineText rest; some (.append text, rest)
  | 'c' :: rest => let (text, rest) := lineText rest; some (.change text, rest)
  | _ => none

/-- Reads commands; the fuel bounds their number. -/
def readCommands (extended : Bool) : Nat → List Char → Option (List EditCommand)
  | 0, _ => some []
  | fuel + 1, s => do
    let s := s.dropWhile fun c => c == ' ' || c == ';' || c == '\n' || c == '\t'
    if s.isEmpty then return []
    let (addresses, s) := match readAddress extended s with
      | some (first, ',' :: rest) =>
        match readAddress extended rest with
        | some (second, rest) => ([first, second], rest)
        | none => ([first], ',' :: rest)
      | some (first, rest) => ([first], rest)
      | none => ([], s)
    let s := withoutSpace s
    let (inverted, s) := match s with
      | '!' :: rest => (true, rest)
      | s => (false, s)
    let (edit, s) ← readEdit extended s
    let s := s.dropWhile (· == ' ')
    if s.isEmpty || s.head? == some ';' || s.head? == some '\n' then
      return ⟨addresses, inverted, edit⟩ :: (← readCommands extended fuel s)
    else none

/-! ## Running commands -/

/-- A line while it is edited. -/
structure EditLine where
  text : List Char
  number : Nat
  isLast : Bool
  /-- What is shown behind the line. -/
  behind : List Char
  /-- Whether the line is dropped. -/
  deleted : Bool
  /-- Whether no more lines are read. -/
  quits : Bool

/-- Whether an address is that of a line. -/
def Address.isOf (a : Address) (line : EditLine) : Bool :=
  match a with
  | .line n => line.number == n
  | .last => line.isLast
  | .found e => (e.find? false [] line.text).isSome

/-- Whether a command is for a line, and whether its range goes on behind it; told whether the range
was entered before. -/
def EditCommand.covers (c : EditCommand) (line : EditLine) (entered : Bool) : Bool × Bool :=
  match c.addresses with
  | [] => (true, false)
  | [a] => (a.isOf line, false)
  | first :: second :: _ =>
    if entered then (true, !second.isOf line)
    else if first.isOf line then
      (true, match second with
        | .line n => line.number < n
        | _ => true)
    else (false, false)

/-- Replaces the matches in a text, but not the first ones.  The fuel bounds their number. -/
def substituteIn (e : Expression) (replacement : List Replacement) (ignoreCase isGlobal : Bool) :
    Nat → Nat → List Char → List Char → Option (List Char)
  | 0, _, _, _ => none
  | fuel + 1, skipped, passed, text => do
    let found ← e.find? ignoreCase passed text
    let before := found.before.drop passed.length
    let instead := replacement.flatMap fun
      | .char c => [c]
      | .group n => if n == 0 then found.taken else (found.groups.lookup n).getD []
    let passed := found.taken.reverse ++ found.before.reverse
    -- Behind an empty match one character is passed over.
    let (step, passed, rest) := match found.taken, found.after with
      | [], c :: rest => ([c], c :: passed, rest)
      | _, rest => ([], passed, rest)
    let others := if found.after.isEmpty then none
      else substituteIn e replacement ignoreCase isGlobal fuel (skipped - 1) passed rest
    if skipped > 0 then others.map fun others => before ++ found.taken ++ step ++ others
    else
      let others := if isGlobal then others else none
      return before ++ instead ++ step ++ others.getD rest

/-- Does an edit to a line. -/
def Edit.apply (edit : Edit) (line : EditLine) : Exec EditLine :=
  match edit with
  | substitute e replacement ignoreCase isGlobal shows skipped => do
    match substituteIn e replacement ignoreCase isGlobal (line.text.length + 2) skipped [] line.text
    with
    | none => return line
    | some text =>
      if shows then Exec.printLine text
      return { line with text := text }
  | translate source target =>
    let instead := fun (c : Char) => target[source.idxOf c]?.getD c
    return { line with text := line.text.map instead }
  | print => do
    Exec.printLine line.text
    return line
  | showNumber => do
    Exec.printLine (naturalChars line.number)
    return line
  | delete => return { line with deleted := true }
  | quit => return { line with quits := true }
  | insert text => do
    Exec.printLine text
    return line
  | append text => return { line with behind := line.behind ++ text ++ ['\n'] }
  | change text => do
    Exec.printLine text
    return { line with deleted := true }

/-- Applies commands to a line, each told whether its range was entered before.  Gives the line, and
whether the ranges go on. -/
def editLine : List (EditCommand × Bool) → EditLine → Exec (EditLine × List (EditCommand × Bool))
  | [], line => return (line, [])
  | (c, entered) :: rest, line => do
    if line.deleted || line.quits then return (line, (c, entered) :: rest)
    let (covered, goesOn) := c.covers line entered
    let line ← if covered != c.inverted then c.edit.apply line else pure line
    let (line, rest) ← editLine rest line
    return (line, (c, goesOn) :: rest)

/-- Edits lines one after another; `stop` is the end of the last one. -/
def editLines (quiet : Bool) (stop : List Char) :
    List (EditCommand × Bool) → Nat → List (List Char) → Exec Unit
  | _, _, [] => return ()
  | commands, n, text :: texts => do
    let (line, commands) ← editLine commands ⟨text, n, texts.isEmpty, [], false, false⟩
    let stopHere := if texts.isEmpty then stop else ['\n']
    if !line.deleted && !quiet then Exec.print (line.text ++ stopHere)
    Exec.print line.behind
    if !line.quits then editLines quiet stop commands (n + 1) texts

/-- Runs `sed`. -/
def sed : Tool := make "sed" "nErsuz" "e" 1 fun a => do
  let given := (a.options.filter (·.1 == 'e')).map Prod.snd
  let (script, paths) := match given, a.operands with
    | [], script :: paths => (some script, paths)
    | [], [] => (none, [])
    | given, paths => (some (['\n'].intercalate given), paths)
  match script with
  | none => complain "sed" (ofText "no script specified") 1
  | some script =>
    match readCommands (a.has 'E' || a.has 'r') (script.length + 1) script with
    | none => complain "sed" (ofText "-e expression #1, char 1: unknown command") 1
    | some commands =>
      let mut text := []
      let paths := if paths.isEmpty then [['-']] else paths
      for path in paths do
        match ← contentOf path with
        | .ok content =>
          let isOpen := !text.isEmpty && text.getLast? != some '\n'
          text := text ++ (if isOpen then ['\n'] else []) ++ content
        | .error e => complain "sed" (ofText "can't read " ++ path ++ reason e) 2
      let stop := if text.getLast? == some '\n' then ['\n'] else []
      editLines (a.has 'n') stop (commands.map (·, false)) 1 (linesOf text)

end ParseAudit.Script.Tool
