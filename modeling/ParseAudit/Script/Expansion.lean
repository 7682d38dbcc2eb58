import ParseAudit.Script.Arithmetic
import ParseAudit.Script.Field
/-!
# Expansion

What a word of a command stands for: its parameters are replaced by their values, its commands by
what they print and its expressions by their numbers.  Where fields are wanted, values are cut, and
patterns are replaced by the paths that they match.
-/

namespace ParseAudit.Script

/-- How words are expanded. -/
structure Expansion where
  /-- Runs a command and gives what it prints. -/
  output : Command → Exec (List Char)
  /-- Whether values are cut into fields. -/
  cutsValues : Bool
  /-- Whether plain text is cut as well, which is so in the word of a parameter. -/
  cutsText : Bool

namespace Expansion

/-- The expansion into a single text. -/
def whole (e : Expansion) : Expansion := { e with cutsValues := false, cutsText := false }

/-- Whether a name stands for all arguments. -/
def isList (name : List Char) : Bool := name == ['@'] || name == ['*']

/-- The value of a parameter, if it is set; a list always is. -/
def valueOf (sh : Shell) (name : List Char) : Option (List Char) :=
  if isList name then some sh.joinedArgs else sh.value? name

/-- The pieces of a parameter after a change of its values. -/
def pieces (e : Expansion) (sh : Shell) (name : List Char) (quoted : Bool)
    (change : List Char → List Char) : List Piece :=
  if isList name && e.cutsValues && (name == ['@'] || !quoted) then
    Piece.ofValues sh.separators quoted (sh.args.map change)
  else Piece.ofValue sh.separators quoted (change ((valueOf sh name).getD []))

/-- Drops the line ends at the end of a text, and all NUL characters. -/
def dropLineEnds (s : List Char) : List Char :=
  ((s.filter (· != '\x00')).reverse.dropWhile (· == '\n')).reverse

/-- Stops at a parameter without a value, if that is not allowed. -/
def demand (name : List Char) : Exec Unit := do
  let sh ← get
  if sh.isOn 'u' && (valueOf sh name).isNone then
    Exec.fault (name ++ ofText ": parameter not set")

/-- The pieces that stand for what is made of a parameter, given how its word is expanded. -/
def parameter (e : Expansion) (name : List Char) (use : Use) (quoted : Bool)
    (word : Expansion → Exec (List Piece)) : Exec (List Piece) := do
  let sh ← get
  let given := fun (emptyToo : Bool) =>
    (valueOf sh name).any fun value => !(emptyToo && value.isEmpty)
  let plain := e.pieces sh name quoted id
  let mark := if quoted then [Piece.mark] else []
  let instead := do return mark ++ (← word { e with cutsText := e.cutsValues && !quoted })
  let text := do return Piece.toChars (← word e.whole)
  match use with
  | .plain =>
    demand name
    return plain
  | .length =>
    demand name
    return Piece.ofValue sh.separators quoted (naturalChars ((valueOf sh name).getD []).length)
  | .default emptyToo => if given emptyToo then return plain else instead
  | .alternative emptyToo => if given emptyToo then instead else return mark
  | .assign emptyToo =>
    if given emptyToo then return plain
    let value ← text
    if !(name.head?.any fun c => c.isAlpha || c == '_') then
      Exec.fault (name ++ ofText ": bad variable name")
    Exec.assign name value
    return e.pieces (← get) name quoted id
  | .require emptyToo =>
    if given emptyToo then return plain
    let reason ← text
    let usual := if emptyToo then "parameter not set or null" else "parameter not set"
    Exec.fault (name ++ [':', ' '] ++ if reason.isEmpty then ofText usual else reason)
  | .cut atEnd longest =>
    demand name
    let pattern := Piece.toPattern (← word e.whole)
    return e.pieces (← get) name quoted (pattern.cut atEnd longest)

/-- The home directory of a user; without a name it is that of the one who runs the script. -/
def home? (sh : Shell) (user : List Char) : Option (List Char) :=
  if user.isEmpty then sh.binding? (ofText "HOME")
  else if user == ofText "root" then some (ofText "/root")
  else none

mutual

/-- The pieces that a part of a word stands for. -/
def part (e : Expansion) : Part → Exec (List Piece)
  | .text chars quoted => do
    if quoted then return Piece.ofValue [] true chars
    let sh ← get
    return Piece.ofValue (if e.cutsText then sh.separators else []) false chars
  | .home user => do
    match home? (← get) user with
    | some path => return Piece.ofValue [] true path
    | none => return Piece.ofValue [] false ('~' :: user)
  | .parameter name use argument quoted => do
    return Piece.enclosed quoted
      (← e.parameter name use quoted fun inner => inner.parts argument)
  | .badUse => Exec.fault (ofText "Bad substitution")
  | .output script quoted => do
    let text ← e.output script
    return Piece.enclosed quoted
      (Piece.ofValue (← get).separators quoted (dropLineEnds text))
  | .number expression quoted => do
    let value ← evaluate (Piece.toChars (← e.whole.parts expression))
    return Piece.enclosed quoted
      (Piece.ofValue (← get).separators quoted (integerChars value))

/-- The pieces that the parts of a word stand for. -/
def parts (e : Expansion) : List Part → Exec (List Piece)
  | [] => return []
  | p :: ps => do
    let first ← e.part p
    return first ++ (← e.parts ps)

end

/-- The text that a word stands for. -/
def text (e : Expansion) (w : Word) : Exec (List Char) := do
  return Piece.toChars (← e.whole.parts w)

/-- The pattern that a word stands for. -/
def pattern (e : Expansion) (w : Word) : Exec Pattern := do
  return Piece.toPattern (← e.whole.parts w)

/-- The fields that a word stands for. -/
def wordFields (e : Expansion) (w : Word) : Exec (List (List Char)) := do
  let found := Piece.toFields (← { e with cutsValues := true, cutsText := false }.parts w)
  let sh ← get
  if sh.isOn 'f' then return found.map Pattern.chars
  return found.flatMap fun p => p.paths sh.tree

/-- The fields that words stand for, one word after the other. -/
def fields (e : Expansion) : List Word → Exec (List (List Char))
  | [] => return []
  | w :: ws => do
    let first ← e.wordFields w
    return first ++ (← e.fields ws)

end Expansion

end ParseAudit.Script
