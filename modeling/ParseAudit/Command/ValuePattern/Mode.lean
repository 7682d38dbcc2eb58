import ParseAudit.Text.Natural
/-!
# Modes and escapes of value patterns

Flags within a pattern change how the text after them is read: it may hold blanks and comments that
say nothing, and its classes may be about octets instead of characters.  What is matched is always
text, so a class of octets must keep to ASCII; and an edge of a word is only found between octets.
-/

namespace ParseAudit.ValuePattern

/-- How a pattern is read at a place. -/
structure Mode where
  /-- Whether blanks and comments say nothing. -/
  spaced : Bool
  /-- Whether classes are about octets. -/
  octets : Bool
  deriving DecidableEq, Repr

namespace Mode

/-- The mode in which a pattern starts. -/
def start : Mode := ⟨false, false⟩

/-- What a list of flags says of one of them: those after a dash are taken back. -/
def setting? (flag : Char) (flags : List Char) : Option Bool :=
  if flags.contains flag then some (!(flags.takeWhile (· != flag)).contains '-') else none

/-- The mode after some flags. -/
def withFlags (m : Mode) (flags : List Char) : Mode :=
  ⟨(setting? 'x' flags).getD m.spaced, ((setting? 'u' flags).map (!·)).getD m.octets⟩

/-- Skips blanks, and comments from a `#` up to the end of the line. -/
def skipRemarks (inRemark : Bool) : List Char → List Char
  | [] => []
  | c :: cs =>
    if inRemark then skipRemarks (c != '\n') cs
    else if isBlank c then skipRemarks false cs
    else if c == '#' then skipRemarks true cs
    else c :: cs

/-- Skips what says nothing. -/
def skip (m : Mode) (s : List Char) : List Char := if m.spaced then skipRemarks false s else s

/-- The character in front of which the next one that says something is looked for.  It may stand
within a comment, whose sign is skipped like a blank. -/
def peek? (m : Mode) (s : List Char) : Option Char :=
  if m.spaced then
    match s.dropWhile isBlank with
    | '#' :: rest => (rest.dropWhile isBlank).head?
    | rest => rest.head?
  else s.head?

/-- Reads a number of characters, without those that say nothing. -/
def take? (m : Mode) : Nat → List Char → Option (List Char × List Char)
  | 0, s => some ([], s)
  | n + 1, s =>
    match m.skip s with
    | [] => none
    | c :: rest => (m.take? n rest).map fun (cs, rest) => (c :: cs, rest)

end Mode

/-! ## Escapes -/

/-- What an escape stands for. -/
inductive Escape where
  | literal (c : Char)
  /-- A class of characters, such as the digits. -/
  | set
  /-- An edge of a word, of a line or of the text. -/
  | edge
  deriving DecidableEq, Repr

/-- Reads the character with a code of `n` hexadecimal digits. -/
def code? (m : Mode) (n : Nat) (s : List Char) : Option (Char × List Char) := do
  let (digits, rest) ← m.take? n s
  let (c, _) ← Chars.codePoint? n digits
  return (c, rest)

/-- The letters that name a category of characters. -/
def categories : List Char := ['C', 'L', 'M', 'N', 'P', 'S', 'Z']

/-- Whether a character may stand after a backslash for itself. -/
def isEscapable (c : Char) : Bool :=
  c.toNat < 0x80 && !c.isAlphanum && c != '<' && c != '>'

/-- Reads an escape after its backslash. -/
def escape? (m : Mode) : List Char → Option (Escape × List Char)
  | [] => none
  | c :: cs =>
    let code := fun n => (code? m n cs).map fun (d, rest) => (Escape.literal d, rest)
    match c with
    -- Two digits name an octet where classes do.
    | 'x' => (code? m 2 cs).bind fun (d, rest) =>
      if m.octets && 0x80 ≤ d.toNat then none else some (.literal d, rest)
    | 'u' => code 4
    | 'U' => code 8
    | 'a' => some (.literal '\x07', cs)
    | 't' => some (.literal '\t', cs)
    | 'n' => some (.literal '\n', cs)
    | 'v' => some (.literal '\x0b', cs)
    | 'f' => some (.literal '\x0c', cs)
    | 'r' => some (.literal '\r', cs)
    | 'A' => some (.edge, cs)
    | 'z' => some (.edge, cs)
    | c =>
      if ['d', 's', 'w'].contains c then some (.set, cs)
      else if ['D', 'S', 'W'].contains c then if m.octets then none else some (.set, cs)
      else if ['b', 'B', '<', '>'].contains c then if m.octets then some (.edge, cs) else none
      else if c == 'p' || c == 'P' then
        match m.take? 1 cs with
        | some ([k], rest) =>
          if !m.octets && categories.contains k.toUpper then some (.set, rest) else none
        | _ => none
      else if isEscapable c then some (.literal c, cs)
      else none

end ParseAudit.ValuePattern
