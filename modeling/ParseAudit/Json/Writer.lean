import ParseAudit.Json.Value
/-!
# Writing JSON

A value is written over several lines, two spaces deeper inside each container; an empty container
is written `[]` or `{}`.  A text escapes the quote, the backslash and the characters below U+0020,
with the short escape where JSON has one.
-/

namespace ParseAudit.Json

/-- A lower-case hexadecimal digit. -/
def hexDigit (n : Nat) : Char := Nat.digitChar (n % 16)

/-- A character as it stands inside a written text. -/
def escapeChar (c : Char) : List Char :=
  if c == '"' then ['\\', '"']
  else if c == '\\' then ['\\', '\\']
  else if c == '\n' then ['\\', 'n']
  else if c == '\r' then ['\\', 'r']
  else if c == '\t' then ['\\', 't']
  else if c == '\x08' then ['\\', 'b']
  else if c == '\x0c' then ['\\', 'f']
  else if c.toNat < 0x20 then
    ['\\', 'u', '0', '0', hexDigit (c.toNat / 16), hexDigit c.toNat]
  else [c]

/-- A written text, quotes included. -/
def quote (s : String) : List Char := '"' :: s.toList.flatMap escapeChar ++ ['"']

/-- A new line at the given depth. -/
def newline (depth : Nat) : List Char := '\n' :: List.replicate (2 * depth) ' '

mutual

/-- A value whose first line is indented already. -/
def prettyAt (depth : Nat) : Json → List Char
  | .null => ['n', 'u', 'l', 'l']
  | .bool true => ['t', 'r', 'u', 'e']
  | .bool false => ['f', 'a', 'l', 's', 'e']
  | .num n => n.text.toList
  | .str s => quote s
  | .arr [] => ['[', ']']
  | .arr (x :: xs) =>
    '[' :: newline (depth + 1) ++ prettyAt (depth + 1) x ++ prettyItems (depth + 1) xs
      ++ newline depth ++ [']']
  | .obj [] => ['{', '}']
  | .obj ((k, v) :: ms) =>
    '{' :: newline (depth + 1) ++ quote k ++ [':', ' '] ++ prettyAt (depth + 1) v
      ++ prettyMembers (depth + 1) ms ++ newline depth ++ ['}']

/-- The items after the first one. -/
def prettyItems (depth : Nat) : List Json → List Char
  | [] => []
  | x :: xs => ',' :: newline depth ++ prettyAt depth x ++ prettyItems depth xs

/-- The members after the first one. -/
def prettyMembers (depth : Nat) : List (String × Json) → List Char
  | [] => []
  | (k, v) :: ms =>
    ',' :: newline depth ++ quote k ++ [':', ' '] ++ prettyAt depth v ++ prettyMembers depth ms

end

/-- The text of a value over several lines, without a line end after it. -/
def pretty (value : Json) : String := String.ofList (prettyAt 0 value)

mutual

/-- The text of a value on one line, without blanks. -/
def compactChars : Json → List Char
  | .null => ['n', 'u', 'l', 'l']
  | .bool true => ['t', 'r', 'u', 'e']
  | .bool false => ['f', 'a', 'l', 's', 'e']
  | .num n => n.text.toList
  | .str s => quote s
  | .arr [] => ['[', ']']
  | .arr (x :: xs) => '[' :: compactChars x ++ compactItems xs ++ [']']
  | .obj [] => ['{', '}']
  | .obj ((k, v) :: ms) =>
    '{' :: quote k ++ [':'] ++ compactChars v ++ compactMembers ms ++ ['}']

/-- The items after the first one. -/
def compactItems : List Json → List Char
  | [] => []
  | x :: xs => ',' :: compactChars x ++ compactItems xs

/-- The members after the first one. -/
def compactMembers : List (String × Json) → List Char
  | [] => []
  | (k, v) :: ms => ',' :: quote k ++ [':'] ++ compactChars v ++ compactMembers ms

end

/-- The text of a value on one line. -/
def compact (value : Json) : String := String.ofList (compactChars value)

end ParseAudit.Json
