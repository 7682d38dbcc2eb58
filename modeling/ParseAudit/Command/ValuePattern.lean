import ParseAudit.Command.ValuePattern.CharSet
import ParseAudit.Text.Alphanumeric
/-!
# Patterns of field values

A directive of a log filter may ask for a field with a certain value: a number, or text that matches
a regular expression.  Messages of this program have no such values, so a pattern is never matched;
but one that is ill-formed makes the whole filter invalid, and `ValuePattern.isWellFormed` tells.
A pattern stands between braces, so that no brace closes within it.
-/

namespace ParseAudit.ValuePattern

/-! ## Groups -/

/-- A group that is open, or the whole expression. -/
structure OpenGroup where
  /-- The mode at the place that was read up to. -/
  mode : Mode
  /-- How deep the pieces of the current branch nest, latest first. -/
  pieces : List Nat
  /-- Whether the latest piece can be repeated. -/
  repeatable : Bool
  /-- How deep the branches before the current one nest. -/
  branches : List Nat
  deriving Repr

namespace OpenGroup

/-- Nothing read in a mode. -/
def start (mode : Mode) : OpenGroup := ⟨mode, [], false, []⟩

/-- Takes in a piece. -/
def add (g : OpenGroup) (depth : Nat) : OpenGroup :=
  { g with pieces := depth :: g.pieces, repeatable := true }

/-- Takes in flags. -/
def addFlags (g : OpenGroup) (flags : List Char) : OpenGroup :=
  { g with mode := g.mode.withFlags flags, pieces := 0 :: g.pieces, repeatable := false }

/-- Repeats the latest piece. -/
def repeated? (g : OpenGroup) : Option OpenGroup :=
  match g.pieces with
  | [] => none
  | depth :: pieces =>
    if g.repeatable then some { g with pieces := (1 + depth) :: pieces } else none

/-- Starts another branch. -/
def nextBranch (g : OpenGroup) : OpenGroup :=
  { g with pieces := [], repeatable := false, branches := together g.pieces :: g.branches }

/-- How deep nests what was read so far. -/
def depth (g : OpenGroup) : Nat := together (together g.pieces :: g.branches)

end OpenGroup

/-- What stands between a bracket that opens and the text of the group. -/
inductive GroupHead where
  /-- Nothing, or a name. -/
  | plain (name : Option (List Char))
  /-- Flags for the group. -/
  | within (flags : List Char)
  /-- Flags for what follows.  The bracket is closed again. -/
  | onwards (flags : List Char)
  deriving Repr

/-- Reads the name of a group up to its end. -/
def groupName? (s : List Char) : Option (List Char × List Char) :=
  let name := s.takeWhile fun c => ['_', '.', '[', ']'].contains c || isAlphanumeric c
  let starts := name.head?.any fun c => c == '_' || isLetter c
  match s.drop name.length with
  | '>' :: rest => if starts then some (name, rest) else none
  | _ => none

/-- Whether each flag is known and given once, and a dash stands before some flag. -/
def areFlags (flags : List Char) : Bool :=
  flags.all (['i', 'm', 's', 'u', 'U', 'R', 'x', '-'].contains ·) && decide flags.Nodup
    && flags.getLast? != some '-'

/-- Reads what stands in front of the text of a group, after its bracket. -/
def groupHead? (s : List Char) : Option (GroupHead × List Char) :=
  let named := fun cs => (groupName? cs).map fun (name, rest) => (GroupHead.plain (some name), rest)
  match s with
  | '?' :: 'P' :: '<' :: cs => named cs
  | '?' :: '<' :: cs => named cs
  | '?' :: cs =>
    let flags := cs.takeWhile fun c => c != ')' && c != ':'
    match cs.drop flags.length with
    | ':' :: rest => if areFlags flags then some (.within flags, rest) else none
    | ')' :: rest => if areFlags flags && !flags.isEmpty then some (.onwards flags, rest) else none
    | _ => none
  | s => some (.plain none, s)

/-! ## Expressions -/

/-- How deep an expression may nest. -/
def maxDepth : Nat := 250

/-- Whether the rest of an expression is well-formed within some open groups; `names` are those of
the groups so far. -/
def isRest : Nat → List (List Char) → OpenGroup → List OpenGroup → List Char → Bool
  | 0, _, _, _, _ => false
  | fuel + 1, names, here, outer, s =>
    match here.mode.skip s with
    | [] => outer.isEmpty && here.depth ≤ maxDepth
    | '|' :: rest => isRest fuel names here.nextBranch outer rest
    | '(' :: rest =>
      match groupHead? (here.mode.skip rest) with
      | none => false
      | some (.plain none, rest) => isRest fuel names (.start here.mode) (here :: outer) rest
      | some (.plain (some name), rest) =>
        !names.contains name
          && isRest fuel (name :: names) (.start here.mode) (here :: outer) rest
      | some (.within flags, rest) =>
        isRest fuel names (.start (here.mode.withFlags flags)) (here :: outer) rest
      | some (.onwards flags, rest) => isRest fuel names (here.addFlags flags) outer rest
    | ')' :: rest =>
      match outer with
      | [] => false
      | around :: outer => isRest fuel names (around.add (1 + here.depth)) outer rest
    | '[' :: rest =>
      match set? here.mode rest with
      | some (depth, rest) => isRest fuel names (here.add depth) outer rest
      | none => false
    | '\\' :: rest =>
      match escape? here.mode rest with
      | some (_, rest) => isRest fuel names (here.add 0) outer rest
      | none => false
    -- A count of repetitions would have to close.
    | '\x7b' :: _ => false
    -- Any octet need not be text.
    | '.' :: rest => !here.mode.octets && isRest fuel names (here.add 0) outer rest
    | c :: rest =>
      if c == '*' || c == '+' || c == '?' then
        -- One more question mark asks for few repetitions instead of many.
        let rest := if rest.head? == some '?' then rest.tail else rest
        match here.repeated? with
        | some here => isRest fuel names here outer rest
        | none => false
      else isRest fuel names (here.add 0) outer rest

/-- Whether a text is a regular expression. -/
def isExpression (s : List Char) : Bool := isRest (s.length + 1) [] (.start .start) [] s

/-- Whether a text is a number with a plus sign, which no regular expression starts with. -/
def isPositiveNumber : List Char → Bool
  | '+' :: cs =>
    let whole := cs.takeWhile Char.isDigit
    let (fraction, rest) :=
      match cs.dropWhile Char.isDigit with
      | '.' :: rest => (rest.takeWhile Char.isDigit, rest.dropWhile Char.isDigit)
      | rest => ([], rest)
    let exponent :=
      match rest with
      | [] => true
      | c :: rest =>
        let digits := if rest.head? == some '+' || rest.head? == some '-' then rest.tail else rest
        c.toLower == 'e' && !digits.isEmpty && digits.all Char.isDigit
    (!(whole ++ fraction).isEmpty && exponent)
      || ["inf", "infinity", "nan"].contains (String.ofList (cs.map Char.toLower))
  | _ => false

/-- Whether a text can be asked for as the value of a field. -/
def isWellFormed (s : List Char) : Bool := isPositiveNumber s || isExpression s

end ParseAudit.ValuePattern
