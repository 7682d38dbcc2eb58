import ParseAudit.Script.Word
/-!
# Reading scripts

A script is read by recursive descent, one line at a time and each line with everything that it
leaves open: what stands on a line runs before the next line is read.  The fuel bounds the depth of
the descent; a multiple of the length of the script always suffices.
-/

namespace ParseAudit.Script.Reading

/-! ## Simple commands -/

/-- The name and the value of an assignment, if a word is one. -/
def assignment? (w : Word) : Option (List Char × Word) :=
  let plain := fun (p : Part) => match p with
    | .text [c] false => some c
    | _ => none
  let name := w.takeWhile fun p => (plain p).any isNameChar
  match w.drop name.length with
  | .text ['='] false :: value =>
    let name := name.filterMap plain
    if isName name then some (name, homesInList value) else none
  | _ => none

/-- The characters of a word that stands for itself, and whether any of it is quoted. -/
def plainText (w : Word) : List Char × Bool :=
  (w.flatMap fun p => match p with
    | .text chars _ => chars
    | _ => ['$'],
  w.any fun p => match p with
    | .text _ quoted => quoted
    | _ => false)

/-- Reads a text that stands in the script after its operator. -/
def hereText (commands : Reading Command) (stream : Nat) : Reading Redirect := do
  let dropTabs := (← rest).head? == some '-'
  if dropTabs then skip 1
  let (stop, isLiteral) := plainText (← someWord commands none)
  let line := (← get).line
  let text ← takeHereLines stop dropTabs isLiteral
  if isLiteral then return .here stream [.text text true]
  -- The text is read like one between double quotes.
  let (w, _) ← (quoted commands (2 * text.length + 2) .textEnd).run ⟨text, line + 1, 0⟩
  return .here stream w

/-- Reads a redirection, if one stands next. -/
def redirect (commands : Reading Command) : Reading (Option Redirect) := do
  skipBlanks
  let s ← rest
  let (number, body) := match s with
    | c :: rest =>
      if c.isDigit && (rest.head?.any fun d => d == '<' || d == '>') then (digitValue? c, rest)
      else (none, s)
    | [] => (none, s)
  skip (s.length - body.length)
  let target := someWord commands none
  let out := number.getD 1
  let source := number.getD 0
  match body with
  | '>' :: '>' :: _ => do skip 2; return some (.toFile out .append (← target))
  | '>' :: '&' :: _ => do skip 2; return some (.copy out (← target))
  | '>' :: '|' :: _ => do skip 2; return some (.toFile out .overwrite (← target))
  | '>' :: _ => do skip 1; return some (.toFile out .replace (← target))
  | '<' :: '<' :: _ => do skip 2; return some (← hereText commands source)
  | '<' :: '&' :: _ => do skip 2; return some (.copy source (← target))
  | '<' :: '>' :: _ => do skip 2; return some (.both source (← target))
  | '<' :: _ => do skip 1; return some (.fromFile source (← target))
  | _ => return none

/-- Reads redirections; the fuel bounds their number. -/
def redirects (commands : Reading Command) : Nat → Reading (List Redirect)
  | 0 => return []
  | fuel + 1 => do
    match ← redirect commands with
    | some r => return r :: (← redirects commands fuel)
    | none => return []

/-- A simple command while it is read, each list with the latest part first. -/
structure Call where
  assignments : List (List Char × Word)
  words : List Word
  redirects : List Redirect

/-- Reads the rest of a simple command; the fuel bounds the number of its parts. -/
def call (commands : Reading Command) (line : Nat) : Nat → Call → Reading Command
  | 0, _ => fail "command too long"
  | fuel + 1, c => do
    match ← redirect commands with
    | some r => call commands line fuel { c with redirects := r :: c.redirects }
    | none =>
      if (← rest).head?.all endsWord then
        return .simple line c.assignments.reverse c.words.reverse c.redirects.reverse
      else
        let w ← word commands
        -- The line of a command is the one on which its first word ends.
        let isFirst := c.assignments.isEmpty && c.words.isEmpty && c.redirects.isEmpty
        let line ← if isFirst then do pure (← get).line else pure line
        match if c.words.isEmpty then assignment? w else none with
        | some a => call commands line fuel { c with assignments := a :: c.assignments }
        | none => call commands line fuel { c with words := w :: c.words }

/-- The commands that no other command can take the name of. -/
def specialNames : List String :=
  [".", ":", "break", "continue", "eval", "exec", "exit", "export", "readonly", "return", "set",
    "shift", "times", "trap", "unset"]

/-- The name of a function whose definition starts here, if one does. -/
def functionName? : Reading (Option (List Char)) := do
  let s ← rest
  let name := s.takeWhile fun c => !endsWord c
  let behind := withoutBlanks (s.drop name.length)
  let isAssignment := (assignment? (name.map fun c => .text [c] false)).isSome
  let marks := ['$', '"', '\'', '\\', backquote]
  let isPlain := name.all (!marks.contains ·)
  let isStream := fun (c : Char) => c.isDigit && (s.drop 1).head?.any (['<', '>'].contains ·)
  if name.isEmpty || behind.head? != some '(' then return none
  else if !isPlain || isAssignment || name.head?.any isStream then return none
  else
    skip (s.length - behind.length + 1)
    expectSeparator false ")"
    if !isName name || specialNames.contains (String.ofList name) then fail "Bad function name"
    return some name

/-- Reads words up to the end of a command. -/
def words (commands : Reading Command) : Nat → Reading (List Word)
  | 0 => return []
  | fuel + 1 => do
    skipBlanks
    if (← rest).head?.all endsWord then return []
    let w ← word commands
    return w :: (← words commands fuel)

/-- Reads the next token, which stands for a word whatever it is. -/
def anyWord (commands : Reading Command) : Reading Word := do
  skipBlanks
  let s ← rest
  match separatorAt? s, s with
  | some text, _ =>
    skip text.length
    return []
  | none, c :: _ =>
    if ['\n', '<', '>'].contains c then
      skip 1
      return []
    else word commands
  | none, [] => return []

/-- Reads the patterns of a branch up to and over the parenthesis. -/
def patterns (commands : Reading Command) : Nat → Reading (List Word)
  | 0 => return []
  | fuel + 1 => do
    let w ← anyWord commands
    if ← takeSeparator "|" then return w :: (← patterns commands fuel)
    expectSeparator false ")"
    return [w]

/-! ## Compound commands -/

mutual

/-- Reads commands one after another within a compound command. -/
def list (fuel : Nat) (mayBeEmpty : Bool) : Reading Command :=
  match fuel with
  | 0 => fail "script too deep"
  | fuel + 1 => do
    skipLines
    if (← rest).isEmpty || (mayBeEmpty && (← endsList)) then return .nothing
    let first ← andOr fuel
    if ← takeSeparator "&" then return .inOrder (.background first) (← list fuel true)
    if ← takeSeparator ";" then return .inOrder first (← list fuel true)
    if (← rest).head? == some '\n' then return .inOrder first (← list fuel true)
    return first

/-- Reads pipelines that are joined by `&&` and `||`. -/
def andOr (fuel : Nat) : Reading Command :=
  match fuel with
  | 0 => fail "script too deep"
  | fuel + 1 => do joined fuel (← pipeline fuel)

/-- Reads what is joined to a pipeline. -/
def joined (fuel : Nat) (first : Command) : Reading Command :=
  match fuel with
  | 0 => fail "script too deep"
  | fuel + 1 => do
    if ← takeSeparator "&&" then
      skipLines
      joined fuel (.andThen first (← pipeline fuel))
    else if ← takeSeparator "||" then
      skipLines
      joined fuel (.orElse first (← pipeline fuel))
    else return first

/-- Reads commands that are joined by `|`, perhaps with a negation in front. -/
def pipeline (fuel : Nat) : Reading Command :=
  match fuel with
  | 0 => fail "script too deep"
  | fuel + 1 => do
    skipBlanks
    if ← isAtWord "!" then
      skip 1
      return .not (← piped fuel)
    else piped fuel

/-- Reads commands that are joined by `|`. -/
def piped (fuel : Nat) : Reading Command :=
  match fuel with
  | 0 => fail "script too deep"
  | fuel + 1 => do
    let first ← command fuel
    if ← takeSeparator "|" then
      skipLines
      return .pipe first (← piped fuel)
    else return first

/-- Reads one command. -/
def command (fuel : Nat) : Reading Command :=
  match fuel with
  | 0 => fail "script too deep"
  | fuel + 1 => do
    skipBlanks
    let line := (← get).line
    let s ← rest
    let commands := list fuel true
    match reservedAt? s, s with
    | some "if", _ => do skip 2; redirected commands line (← conditional fuel)
    | some "while", _ => do skip 5; redirected commands line (← loop fuel true)
    | some "until", _ => do skip 5; redirected commands line (← loop fuel false)
    | some "for", _ => do skip 3; redirected commands line (← forEach fuel line)
    | some "case", _ =>
      skip 4
      let subject ← someWord commands (some "word")
      expectWord "in"
      redirected commands line (.select line subject (← branches fuel))
    | some "\x7b", _ =>
      skip 1
      let body ← list fuel false
      expectWord "\x7d"
      redirected commands line body
    | some _, _ => unexpected true none
    | none, '(' :: _ =>
      skip 1
      let body ← list fuel false
      expectSeparator true ")"
      redirected commands line (.apart body)
    | none, _ =>
      match ← functionName? with
      | some name =>
        skipLines
        return .define name (← command fuel)
      | none =>
        match ← call commands line (s.length + 1) ⟨[], [], []⟩ with
        | .simple _ [] [] [] => unexpected true none
        | .simple line assignments words redirects =>
          if (← rest).head? == some '(' then
            if !assignments.isEmpty || words.length != 1 || !redirects.isEmpty then
              unexpected true none
            skip 1
            expectSeparator false ")"
            fail "Bad function name"
          return .simple line assignments words redirects
        | other => return other
where
  /-- Puts the redirections that follow a compound command around it. -/
  redirected (commands : Reading Command) (line : Nat) (body : Command) : Reading Command := do
    match ← redirects commands ((← rest).length + 1) with
    | [] => return body
    | rs => return .redirected line body rs

/-- Reads a conditional after its first word. -/
def conditional (fuel : Nat) : Reading Command :=
  match fuel with
  | 0 => fail "script too deep"
  | fuel + 1 => do
    let condition ← list fuel false
    expectWord "then"
    let yes ← list fuel false
    skipLines
    if ← isAtWord "elif" then
      skip 4
      return .branch condition yes (← conditional fuel)
    else if ← isAtWord "else" then
      skip 4
      let no ← list fuel false
      expectWord "fi"
      return .branch condition yes no
    else
      expectWord "fi"
      return .branch condition yes .nothing

/-- Reads a loop with a condition after its first word. -/
def loop (fuel : Nat) (expected : Bool) : Reading Command :=
  match fuel with
  | 0 => fail "script too deep"
  | fuel + 1 => do
    let condition ← list fuel false
    expectWord "do"
    let body ← list fuel false
    expectWord "done"
    return .loop expected condition body

/-- Reads a loop over words after its first word. -/
def forEach (fuel line : Nat) : Reading Command :=
  match fuel with
  | 0 => fail "script too deep"
  | fuel + 1 => do
    let commands := list fuel true
    skipBlanks
    let (name, isQuoted) := plainText (← word commands)
    if isQuoted || !isName name then fail "Bad for loop variable"
    skipLines
    -- Without a list of words the loop goes over the arguments.
    let values ← if ← isAtWord "in" then do
        skip 2
        let values ← words commands ((← rest).length + 1)
        if !(← takeSeparator ";") && (← rest).head? != some '\n' then unexpected true none
        pure values
      else do
        let _ ← takeSeparator ";"
        pure [[.parameter ['@'] .plain [] true]]
    expectWord "do"
    let body ← list fuel false
    expectWord "done"
    return .forEach line name values body

/-- Reads the branches of a selection up to and over its last word. -/
def branches (fuel : Nat) : Reading (List (List Word × Command)) :=
  match fuel with
  | 0 => fail "script too deep"
  | fuel + 1 => do
    skipLines
    if ← isAtWord "esac" then
      skip 4
      return []
    -- The opening parenthesis of a branch may be left out.
    let _ ← takeSeparator "("
    let patterns ← patterns (list fuel true) ((← rest).length + 1)
    let body ← list fuel true
    skipLines
    if ← isAtWord "esac" then
      skip 4
      return [(patterns, body)]
    expectSeparator true ";;"
    return (patterns, body) :: (← branches fuel)

end

/-! ## Lines -/

/-- The fuel that suffices for what is left. -/
def enough : Reading Nat := do return 12 * (← rest).length + 24

/-- Reads a text that is expanded as a whole, whatever stands in it. -/
def expandable (text : List Char) : Except SyntaxError Word :=
  (quoted (do list (← enough) true) (2 * text.length + 2) .textEnd).run' (.start text)

/-- Reads commands up to the end of the line; the fuel bounds their number. -/
def restOfLine : Nat → Reading Command
  | 0 => return .nothing
  | fuel + 1 => do
    skipBlanks
    match (← rest).head? with
    | none => return .nothing
    | some '\n' =>
      skip 1
      return .nothing
    | some _ =>
      let first ← andOr (← enough)
      if ← takeSeparator "&" then return .inOrder (.background first) (← restOfLine fuel)
      if ← takeSeparator ";" then return .inOrder first (← restOfLine fuel)
      match (← rest).head? with
      | none => return first
      | some '\n' =>
        skip 1
        return first
      | some _ => unexpected true none

/-- Reads the commands of a line, if there is one. -/
def line? : Reading (Option Command) := do
  if (← rest).isEmpty then return none
  return some (← restOfLine ((← rest).length + 1))

end ParseAudit.Script.Reading
