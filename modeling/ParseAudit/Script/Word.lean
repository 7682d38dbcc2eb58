import ParseAudit.Script.Cursor
/-!
# Reading words

A word is read part by part: plain and quoted text, parameters, arithmetic, and commands whose
output is meant.  Those commands are read by a reading that is handed in, up to the parenthesis that
closes them.  The fuel bounds the depth of the descent; twice the length of the script suffices.
-/

namespace ParseAudit.Script.Reading

/-- What ends a text in double quotes or like it. -/
inductive Closing where
  | quote
  /-- The brace of a parameter within double quotes. -/
  | brace
  /-- The two parentheses of arithmetic, with the number of those that are still open within. -/
  | parentheses (depth : Nat)
  /-- The end of a text that stands in the script. -/
  | textEnd

/-- The uses of parameters by what stands in front of their words, the longer ones first. -/
def uses : List (List Char × Use) := [
  ([':', '-'], .default true), ([':', '='], .assign true), ([':', '+'], .alternative true),
  ([':', '?'], .require true), (['%', '%'], .cut true true), (['#', '#'], .cut false true),
  (['-'], .default false), (['='], .assign false), (['+'], .alternative false),
  (['?'], .require false), (['%'], .cut true false), (['#'], .cut false false)]

/-- Whether the word of a use is a pattern. -/
def isPatternUse : Use → Bool
  | .cut .. => true
  | _ => false

/-- Reads the name of a parameter in braces. -/
def parameterName : Reading (List Char) := do
  match ← rest with
  | c :: _ =>
    if startsName c then takeWhile isNameChar
    else if c.isDigit then takeWhile Char.isDigit
    else if isSpecial c then do
      skip 1
      return [c]
    else return []
  | [] => return []

/-- Reads a command between back quotes up to the closing one.  A backslash frees some characters,
between double quotes also their own. -/
def backquoted (inQuotes : Bool) : Nat → Reading (List Char)
  | 0 => fail "EOF in backquote substitution"
  | fuel + 1 => do
    match ← rest with
    | [] => fail "EOF in backquote substitution"
    | '\\' :: c :: _ =>
      skip 2
      let freed := c == '\\' || c == '$' || c == backquote || (inQuotes && c == '"')
      return (if freed then [c] else ['\\', c]) ++ (← backquoted inQuotes fuel)
    | c :: _ =>
      skip 1
      if c == backquote then return [] else return c :: (← backquoted inQuotes fuel)

/-- Whether a part is one of some plain characters. -/
def isPlainIn (chars : List Char) : Part → Bool
  | .text [c] false => chars.contains c
  | _ => false

/-- A word with a home directory in the place of a tilde in front.  The name of the user behind it
must be plain. -/
def homeInFront (w : Word) : Word :=
  match w with
  | .text ['~'] false :: behind =>
    let name := behind.takeWhile (!isPlainIn ['/'] ·)
    let chars := name.filterMap fun
      | .text [c] false => some c
      | _ => none
    if chars.length = name.length then .home chars :: behind.drop name.length else w
  | w => w

/-- A list of paths with home directories in the place of tildes in front of them. -/
def homesInList (w : Word) : Word :=
  [Part.text [':'] false].intercalate ((w.splitOnP (isPlainIn [':'])).map homeInFront)

/-- Puts a part in front of the parts that follow. -/
def following (part : Part) (others : Reading Word) : Reading Word := do
  return part :: (← others)

mutual

/-- Reads the parts of a word up to its end. -/
def parts (commands : Reading Command) (fuel : Nat) (inBraces : Bool) : Reading Word :=
  match fuel with
  | 0 => fail "word too long"
  | fuel + 1 => do
    match ← rest with
    | [] => if inBraces then fail "Missing '\x7d'" else return []
    | '\'' :: _ =>
      skip 1
      let inner ← takeWhile (· != '\'')
      if (← rest).isEmpty then fail "Unterminated quoted string"
      skip 1
      following (.text inner true) (parts commands fuel inBraces)
    | '"' :: _ =>
      skip 1
      let inner ← quoted commands fuel .quote
      let inner := if inner.isEmpty then [.text [] true] else inner
      return inner ++ (← parts commands fuel inBraces)
    | '\\' :: '\n' :: _ =>
      skip 2
      parts commands fuel inBraces
    | '\\' :: c :: _ =>
      skip 2
      following (.text [c] true) (parts commands fuel inBraces)
    | c :: _ =>
      if c == '$' || c == backquote then
        let part ← dollar commands fuel false
        following part (parts commands fuel inBraces)
      else if inBraces && c == '\x7d' then
        skip 1
        return []
      else if !inBraces && endsWord c then return []
      else
        skip 1
        following (.text [c] false) (parts commands fuel inBraces)

/-- Reads the parts of a text in double quotes up to and over its end. -/
def quoted (commands : Reading Command) (fuel : Nat) (closing : Closing) : Reading Word :=
  match fuel with
  | 0 => fail "word too long"
  | fuel + 1 => do
    match ← rest, closing with
    | [], .textEnd => return []
    | [], .quote => fail "Unterminated quoted string"
    | [], .brace => fail "Missing '\x7d'"
    | [], .parentheses _ => fail "Missing '))'"
    | '\\' :: '\n' :: _, _ =>
      skip 2
      quoted commands fuel closing
    | '\\' :: c :: _, _ =>
      skip 2
      -- A backslash frees only these characters, and else stands for itself.
      let own := match closing with
        | .quote | .parentheses _ => c == '"'
        | .brace => c == '"' || c == '\x7d'
        | _ => false
      let freed := own || ['$', '\\', backquote].contains c
      following (.text (if freed then [c] else ['\\', c]) true) (quoted commands fuel closing)
    | '"' :: _, .quote =>
      skip 1
      return []
    | '"' :: _, .brace =>
      skip 1
      let inner ← quoted commands fuel .quote
      return .text [] true :: inner ++ (← quoted commands fuel .brace)
    | '\x7d' :: _, .brace =>
      skip 1
      return []
    | ')' :: ')' :: _, .parentheses 0 =>
      skip 2
      return []
    | ')' :: _, .parentheses depth =>
      skip 1
      following (.text [')'] true) (quoted commands fuel (.parentheses (depth - 1)))
    | '(' :: _, .parentheses depth =>
      skip 1
      following (.text ['('] true) (quoted commands fuel (.parentheses (depth + 1)))
    | c :: _, _ =>
      if c == '$' || c == backquote then
        let part ← dollar commands fuel true
        following part (quoted commands fuel closing)
      else
        skip 1
        following (.text [c] true) (quoted commands fuel closing)

/-- Reads what starts with `$` or a back quote. -/
def dollar (commands : Reading Command) (fuel : Nat) (isQuoted : Bool) : Reading Part :=
  match fuel with
  | 0 => fail "word too long"
  | fuel + 1 => do
    match ← rest with
    | '$' :: '(' :: '(' :: _ =>
      skip 3
      return .number (← quoted commands fuel (.parentheses 0)) isQuoted
    | '$' :: '(' :: _ =>
      skip 2
      let script ← commands
      skipLines
      expectSeparator true ")"
      return .output script isQuoted
    | '$' :: '\x7b' :: _ =>
      skip 2
      inBraces commands fuel isQuoted
    | '$' :: c :: _ =>
      skip 1
      if startsName c then return .parameter (← takeWhile isNameChar) .plain [] isQuoted
      else if isSpecial c then
        skip 1
        return .parameter [c] .plain [] isQuoted
      else return .text ['$'] isQuoted
    | '$' :: _ =>
      skip 1
      return .text ['$'] isQuoted
    | _ =>
      let line := (← get).line
      skip 1
      let script ← backquoted isQuoted ((← rest).length + 1)
      -- The text between the quotes is read as a script of its own.
      let (script, last) ← commands.run ⟨script, line, 0⟩
      match last.rest with
      | [] => return .output script isQuoted
      | left => throw ⟨last.line, tokenName true left ++ " unexpected"⟩

/-- Reads a parameter after its opening brace. -/
def inBraces (commands : Reading Command) (fuel : Nat) (isQuoted : Bool) : Reading Part :=
  match fuel with
  | 0 => fail "word too long"
  | fuel + 1 => do
    let argument := fun (use : Use) =>
      if isQuoted && !isPatternUse use then quoted commands fuel .brace
      else do return homeInFront (← parts commands fuel true)
    match ← rest with
    | '#' :: '\x7d' :: _ =>
      skip 2
      return .parameter ['#'] .plain [] isQuoted
    | '#' :: c :: _ =>
      if startsName c || c.isDigit || ['@', '*', '?', '$', '!'].contains c then
        skip 1
        let name ← parameterName
        match ← rest with
        | '\x7d' :: _ =>
          skip 1
          return .parameter name .length [] isQuoted
        | _ =>
          let _ ← argument .plain
          return .badUse
      else
        skip 1
        use ['#'] argument
    | _ => use (← parameterName) argument
where
  /-- Reads what is made of a parameter. -/
  use (name : List Char) (argument : Use → Reading Word) : Reading Part := do
    let s ← rest
    if name.isEmpty then
      let _ ← argument .plain
      return .badUse
    else
      match uses.find? fun (text, _) => text.isPrefixOf s with
      | some (text, use) =>
        skip text.length
        return .parameter name use (← argument use) isQuoted
      | none =>
        match s with
        | '\x7d' :: _ =>
          skip 1
          return .parameter name .plain [] isQuoted
        | _ =>
          let _ ← argument .plain
          return .badUse

end

/-- Reads a word, which may turn out to be empty. -/
def word (commands : Reading Command) : Reading Word := do
  return homeInFront (← parts commands (2 * (← rest).length + 2) false)

/-- Reads a word, which must not be empty. -/
def someWord (commands : Reading Command) (expected : Option String) : Reading Word := do
  skipBlanks
  let w ← word commands
  if w.isEmpty then unexpected false expected else return w

end ParseAudit.Script.Reading
