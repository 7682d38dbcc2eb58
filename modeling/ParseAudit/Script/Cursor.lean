import ParseAudit.Script.Syntax
/-!
# Places in a script

A script is read from left to right.  A cursor knows what is left of it and on which line that
starts; a reading moves the cursor and gives what it read, or says what it cannot read.  Here are
also the tokens of scripts that need no recursion: blanks, names, operators and reserved words.
-/

namespace ParseAudit.Script

/-- A place in a script. -/
structure Cursor where
  /-- What is left. -/
  rest : List Char
  /-- The number of the line on which it starts. -/
  line : Nat
  /-- How many lines were taken out behind the current one; they are counted at its end. -/
  hidden : Nat

namespace Cursor

/-- The start of a script. -/
def start (script : List Char) : Cursor := ⟨script, 1, 0⟩

/-- Moves over one character. -/
def step (c : Cursor) : Cursor :=
  match c.rest with
  | [] => c
  | '\n' :: rest => ⟨rest, c.line + 1 + c.hidden, 0⟩
  | _ :: rest => { c with rest := rest }

/-- Moves over some characters. -/
def drop (c : Cursor) : Nat → Cursor
  | 0 => c
  | n + 1 => c.step.drop n

end Cursor

/-- Why a script cannot be read, and on which line. -/
structure SyntaxError where
  line : Nat
  reason : String

/-- Reads something at a cursor. -/
abbrev Reading := StateT Cursor (Except SyntaxError)

/-! ## Characters -/

/-- The quote that encloses a command whose output is meant. -/
def backquote : Char := '\x60'

/-- Whether a character ends a word. -/
def endsWord (c : Char) : Bool :=
  [' ', '\t', '\n', ';', '&', '|', '<', '>', '(', ')'].contains c

/-- Whether a character may start a name. -/
def startsName (c : Char) : Bool := c.isAlpha || c == '_'

/-- Whether a character may stand in a name. -/
def isNameChar (c : Char) : Bool := c.isAlphanum || c == '_'

/-- Whether a text is a name. -/
def isName (s : List Char) : Bool := s.head?.any startsName && s.all isNameChar

/-- Whether a character is the name of a special parameter. -/
def isSpecial (c : Char) : Bool := ['@', '*', '#', '?', '$', '!', '-'].contains c || c.isDigit

/-! ## Tokens -/

/-- The words that have a meaning where a command is expected. -/
def reservedWords : List (List Char) :=
  (["if", "then", "else", "elif", "fi", "for", "in", "do", "done", "case", "esac", "while",
    "until", "!", "\x7b", "\x7d"] : List String).map String.toList

/-- The reserved word that a text starts with. -/
def reservedAt? (s : List Char) : Option String :=
  let w := s.takeWhile fun c => !endsWord c
  if reservedWords.contains w then some (String.ofList w) else none

/-- The operators that part commands, the longer ones first. -/
def separators : List String := ["&&", "||", ";;", ";", "&", "|", "(", ")"]

/-- The separator that a text starts with. -/
def separatorAt? (s : List Char) : Option String :=
  separators.find? fun text => text.toList.isPrefixOf s

/-- A text between double quotes. -/
def inQuotes (text : String) : String := "\"" ++ text ++ "\""

/-- What a message calls the token that a text starts with.  Reserved words have a name of their own
where a command is expected. -/
def tokenName (atCommand : Bool) (s : List Char) : String :=
  match s with
  | [] => "end of file"
  | '\n' :: _ => "newline"
  | c :: _ =>
    if c == '<' || c == '>' then "redirection"
    else
      let reserved := if atCommand then reservedAt? s else none
      ((separatorAt? s <|> reserved).map inQuotes).getD "word"

/-- A text without the blanks, continued lines and comments in front; line ends stay. -/
def withoutBlanks : List Char → List Char
  | ' ' :: s => withoutBlanks s
  | '\t' :: s => withoutBlanks s
  | '\\' :: '\n' :: s => withoutBlanks s
  | '#' :: s => s.dropWhile (· != '\n')
  | s => s

namespace Reading

/-- What is left. -/
def rest : Reading (List Char) := do return (← get).rest

/-- Moves over some characters. -/
def skip (n : Nat) : Reading Unit := modify (·.drop n)

/-- Reads characters of a kind, as many as there are. -/
def takeWhile (p : Char → Bool) : Reading (List Char) := do
  let found := (← rest).takeWhile p
  skip found.length
  return found

/-- Moves over blanks, continued lines and comments. -/
def skipBlanks : Reading Unit := do
  let s ← rest
  skip (s.length - (withoutBlanks s).length)

/-- Moves over blanks, comments and line ends; the fuel bounds the number of lines. -/
def skipLinesWithin : Nat → Reading Unit
  | 0 => return ()
  | fuel + 1 => do
    skipBlanks
    if (← rest).head? == some '\n' then
      skip 1
      skipLinesWithin fuel

/-- Moves over blanks, comments and line ends. -/
def skipLines : Reading Unit := do skipLinesWithin ((← rest).length + 1)

/-- Says that the script cannot be read. -/
def fail {α : Type} (reason : String) : Reading α := do throw ⟨(← get).line, reason⟩

/-- Says that the next token should not be there, and which one should. -/
def unexpected {α : Type} (atCommand : Bool) (expected : Option String) : Reading α := do
  skipBlanks
  let wish := match expected with
    | some text => " (expecting " ++ text ++ ")"
    | none => ""
  fail (tokenName atCommand (← rest) ++ " unexpected" ++ wish)

/-- Whether the next token is a reserved word. -/
def isAtWord (word : String) : Reading Bool := do return reservedAt? (← rest) == some word

/-- Moves over a reserved word, which must stand next, perhaps on a later line. -/
def expectWord (word : String) : Reading Unit := do
  skipLines
  if ← isAtWord word then skip word.length else unexpected true (some (inQuotes word))

/-- Moves over a separator if it stands next. -/
def takeSeparator (text : String) : Reading Bool := do
  skipBlanks
  if separatorAt? (← rest) == some text then
    skip text.length
    return true
  else return false

/-- Moves over a separator, which must stand next. -/
def expectSeparator (atCommand : Bool) (text : String) : Reading Unit := do
  if !(← takeSeparator text) then unexpected atCommand (some (inQuotes text))

/-- Whether the next token ends a list of commands. -/
def endsList : Reading Bool := do
  let s ← rest
  match separatorAt? s, reservedAt? s with
  | some text, _ => return [")", ";;"].contains text
  | _, some word =>
    return ["then", "else", "elif", "fi", "do", "done", "esac", "\x7d"].contains word
  | _, _ => return s.isEmpty

/-- Whether a line goes on behind its end: a backslash stands there that no other one frees. -/
def goesOn (line : List Char) : Bool :=
  (line.reverse.takeWhile (· == '\\')).length % 2 == 1

/-- Takes the lines of a text out of the script: those behind the current one, up to a line that
stops them.  Tabs in front of lines are dropped on demand.  Unless the text is literal, a line may
go on behind its end. -/
def takeHereLines (stop : List Char) (dropTabs isLiteral : Bool) : Reading (List Char) := do
  let c ← get
  let line := c.rest.takeWhile (· != '\n')
  let behind := (c.rest.dropWhile (· != '\n')).drop 1
  let (text, others, count) := go false (behind.length + 1) behind
  let others := if others.isEmpty && behind.isEmpty then [] else '\n' :: others
  set { c with rest := line ++ others, hidden := c.hidden + count }
  return text
where
  /-- The lines up to the last one, what follows it, and the number of all of them. -/
  go (isInside : Bool) : Nat → List Char → List Char × List Char × Nat
    | 0, s => ([], s, 0)
    | fuel + 1, s =>
      let line := s.takeWhile (· != '\n')
      let rest := s.dropWhile (· != '\n')
      let line := if dropTabs && !isInside then line.dropWhile (· == '\t') else line
      if line == stop && !isInside then ([], rest.drop 1, 1)
      else if rest.isEmpty then (line, [], 0)
      else
        let (text, others, count) := go (!isLiteral && goesOn line) fuel (rest.drop 1)
        (line ++ '\n' :: text, others, count + 1)

end Reading

end ParseAudit.Script
