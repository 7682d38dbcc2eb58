import ParseAudit.Text.Natural
import ParseAudit.Text.Octets
/-!
# Scripts

A parser may be given as a shell script.  Here are the words and commands of such scripts.  A
script is read octet by octet: each octet is kept as the character with its number, so that
everything a script prints can be told apart.
-/

namespace ParseAudit.Script

/-- The characters for octets, one for each. -/
def ofOctets (octets : Octets) : List Char := octets.map fun b => Char.ofNat b.toNat

/-- The octets for characters that stand for one each. -/
def toOctets (chars : List Char) : Octets := chars.map fun c => UInt8.ofNat c.toNat

/-- The characters for the octets of a text. -/
def ofText (s : String) : List Char := ofOctets (Octets.ofText s)

/-- The text that characters for octets stand for. -/
def toText (chars : List Char) : String := Octets.toTextLenient (toOctets chars)

/-- Whether a character is a blank, or moves to another line or page. -/
def isSpace (c : Char) : Bool := c == ' ' || (9 ≤ c.toNat && c.toNat ≤ 13)

/-- A text without the blanks and line ends in front. -/
def withoutSpace (s : List Char) : List Char := s.dropWhile isSpace

/-- What is made of the value of a parameter. -/
inductive Use where
  | plain
  | length
  /-- Another text in the place of a missing value; `emptyToo` counts an empty value as missing. -/
  | default (emptyToo : Bool)
  /-- Like `default`, and the parameter is set to the text. -/
  | assign (emptyToo : Bool)
  /-- Another text in the place of a value, and nothing in the place of a missing one. -/
  | alternative (emptyToo : Bool)
  /-- A missing value ends the script. -/
  | require (emptyToo : Bool)
  /-- Cuts off what matches a pattern. -/
  | cut (atEnd longest : Bool)

/-- How a file is written to. -/
inductive WriteMode where
  /-- Behind its content. -/
  | append
  /-- In the place of its content, unless files are protected. -/
  | replace
  /-- In the place of its content in any case. -/
  | overwrite
  deriving DecidableEq

mutual

/-- A part of a word. -/
inductive Part where
  /-- Characters that stand there; `*`, `?` and brackets count in a pattern unless quoted. -/
  | text (chars : List Char) (quoted : Bool)
  /-- The home directory of a user, or of the one who runs the script. -/
  | home (user : List Char)
  /-- What is made of the value of a parameter, with the word that the use needs. -/
  | parameter (name : List Char) (use : Use) (argument : List Part) (quoted : Bool)
  /-- A parameter whose use makes no sense. -/
  | badUse
  /-- What commands print. -/
  | output (script : Command) (quoted : Bool)
  /-- The value of an arithmetic expression. -/
  | number (expression : List Part) (quoted : Bool)

/-- What is done to a stream of a command, which is known by its number. -/
inductive Redirect where
  /-- A stream goes where another one goes, or is closed. -/
  | copy (stream : Nat) (target : List Part)
  | toFile (stream : Nat) (mode : WriteMode) (target : List Part)
  /-- A stream comes from a file. -/
  | fromFile (stream : Nat) (source : List Part)
  /-- A stream comes from a file that is made if it is missing. -/
  | both (stream : Nat) (file : List Part)
  /-- A stream comes from a text in the script. -/
  | here (stream : Nat) (text : List Part)

/-- A command. -/
inductive Command where
  | nothing
  /-- Assignments and the words of a call, with the line on which they stand. -/
  | simple (line : Nat) (assignments : List (List Char × List Part)) (words : List (List Part))
      (redirects : List Redirect)
  | inOrder (first second : Command)
  | andThen (first second : Command)
  | orElse (first second : Command)
  | not (body : Command)
  | pipe (first second : Command)
  | background (body : Command)
  /-- Runs its body for each word; what starts with a line expands words of its own. -/
  | forEach (line : Nat) (name : List Char) (words : List (List Part)) (body : Command)
  | select (line : Nat) (subject : List Part) (branches : List (List (List Part) × Command))
  | branch (condition yes no : Command)
  /-- Repeats its body while the condition gives the expected answer. -/
  | loop (expected : Bool) (condition body : Command)
  /-- A command that cannot change its surroundings. -/
  | apart (body : Command)
  /-- A command with streams of its own. -/
  | redirected (line : Nat) (body : Command) (redirects : List Redirect)
  /-- Gives a name to a command. -/
  | define (name : List Char) (body : Command)

end

/-- A word. -/
abbrev Word := List Part

end ParseAudit.Script
