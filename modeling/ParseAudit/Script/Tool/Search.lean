import ParseAudit.Script.Expression
import ParseAudit.Script.Tool.Basic
/-!
# Searching lines

`grep` shows the lines in which an expression finds something, or tells where they are.
-/

namespace ParseAudit.Script.Tool

/-- What is looked for in a line. -/
structure Query where
  expression : Expression
  ignoreCase : Bool
  /-- Whether lines without a match are meant. -/
  inverted : Bool

namespace Query

/-- Whether a line is meant. -/
def selects (q : Query) (line : List Char) : Bool :=
  (q.expression.find? q.ignoreCase [] line).isSome != q.inverted

/-- The parts of a line that match and are not empty, from left to right.  The fuel bounds their
number. -/
def parts (q : Query) : Nat → List Char → List Char → List (List Char)
  | 0, _, _ => []
  | fuel + 1, passed, line =>
    match q.expression.find? q.ignoreCase passed line with
    | none => []
    | some found =>
      match found.taken, found.after with
      | [], [] => []
      | [], c :: rest => parts q fuel (c :: found.before.reverse) rest
      | taken, rest => taken :: parts q fuel (taken.reverse ++ found.before.reverse) rest

end Query

/-- The expression for the patterns of a search, each on a line of its own. -/
def searched? (a : Arguments) (patterns : List Char) : Option Expression := do
  let sources := patterns.splitOnP (· == '\n')
  let read := fun (source : List Char) =>
    if a.has 'F' then some (Expression.ofText source) else Expression.parse? (a.has 'E') source
  let around := fun (e : Expression) =>
    if a.has 'x' then Expression.seq .start (.seq (.group 0 e) .stop)
    else if a.has 'w' then .seq .edge (.seq (.group 0 e) .edge)
    else e
  let found ← sources.mapM read
  match found.map around with
  | [] => none
  | e :: es => some (es.foldl .alt e)

/-- Shows what a search finds in one input, and says whether there was anything. -/
def searchIn (a : Arguments) (q : Query) (title : List Char) (content : List Char) : Exec Bool := do
  let lines := (linesOf content).zipIdx 1
  let found := lines.filter fun (line, _) => q.selects line
  let found := match (a.value? 'm').bind Chars.natural? with
    | some n => found.take n
    | none => found
  let name := if a.has 'h' then [] else title
  let start := if name.isEmpty then [] else name ++ [':']
  if a.has 'q' then return !found.isEmpty
  if a.has 'c' then Exec.printLine (start ++ naturalChars found.length)
  else if a.has 'l' || a.has 'L' then
    if found.isEmpty == a.has 'L' then Exec.printLine title
  else
    for (line, n) in found do
      let start := start ++ if a.has 'n' then naturalChars n ++ [':'] else []
      if a.has 'o' then
        Exec.print (joinLines ((q.parts (line.length + 1) [] line).map (start ++ ·)))
      else Exec.printLine (start ++ line)
  return !found.isEmpty

/-- How to use `grep`, in short. -/
def grepUsage : Exec Unit := do
  Exec.remark (ofText ("Usage: grep [OPTION]... PATTERNS [FILE]...\n"
    ++ "Try 'grep --help' for more information."))
  Exec.setStatus 2

/-- Searches the inputs.  The status tells whether something was found, or that an input could not
be read. -/
def searchAll (a : Arguments) (q : Query) (paths : List (List Char)) : Exec Unit := do
  let mut found := false
  let mut failed := false
  for path in paths do
    match ← contentOf path with
    | .error e =>
      failed := true
      if !a.has 's' then complain "grep" (plainly path e) 2
    | .ok content =>
      let name := if path == ['-'] then ofText "(standard input)" else path
      let isTitled := paths.length > 1 || a.has 'H' || a.has 'l' || a.has 'L'
      let any ← searchIn a q (if isTitled then name else []) content
      found := found || any
  Exec.setStatus (if failed && !(a.has 'q' && found) then 2 else if found then 0 else 1)

/-- Runs `grep`. -/
def grep : Tool := fun args => do
  match readArguments "ivclLnhHoqsEFGwxar".toList "em".toList args with
  | .error text =>
    complain "grep" text 2
    grepUsage
  | .ok a =>
    let given := (a.options.filter (·.1 == 'e')).map Prod.snd
    let (patterns, paths) := match given, a.operands with
      | [], pattern :: paths => (some pattern, paths)
      | [], [] => (none, [])
      | given, paths => (some (['\n'].intercalate given), paths)
    match patterns, patterns.bind (searched? a) with
    | none, _ => grepUsage
    | some _, none => complain "grep" (ofText "Invalid regular expression") 2
    | some _, some expression =>
      searchAll a ⟨expression, a.has 'i', a.has 'v'⟩ (if paths.isEmpty then [['-']] else paths)

end ParseAudit.Script.Tool
