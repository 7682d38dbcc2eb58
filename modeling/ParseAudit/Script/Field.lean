import ParseAudit.Script.Pattern
/-!
# Fields

What words stand for is cut into fields at certain characters, the separators, wherever they come
from an unquoted value.  Blanks among them are cut away and never make an empty field; every other
separator ends a field.
-/

namespace ParseAudit.Script

/-- A piece of what a word stands for. -/
inductive Piece where
  /-- A character; a quoted one means nothing but itself. -/
  | char (c : Char) (quoted : Bool)
  /-- A blank at which an unquoted value is cut. -/
  | blank (c : Char)
  /-- Another separator at which an unquoted value is cut. -/
  | separator (c : Char)
  /-- Where an unquoted value starts or ends: a blank and a separator at two sides of it do not
  belong together. -/
  | edge
  /-- The end of one quoted value of a list. -/
  | cut
  /-- Something that makes a field even if it is empty. -/
  | mark

namespace Piece

/-- The blanks that can be separators. -/
def blanks : List Char := [' ', '\t', '\n']

/-- The pieces of a value; an unquoted one is cut at separators. -/
def ofValue (separators : List Char) (quoted : Bool) (value : List Char) : List Piece :=
  if quoted then .mark :: value.map fun c => .char c true
  else value.map fun c =>
    if !separators.contains c then .char c false
    else if blanks.contains c then .blank c
    else .separator c

/-- The pieces of values in a list. -/
def ofValues (separators : List Char) (quoted : Bool) (values : List (List Char)) : List Piece :=
  let between := if quoted then cut else blank ' '
  [between].intercalate (values.map (ofValue separators quoted))

/-- Pieces that come from an expansion, with their edges unless it is quoted. -/
def enclosed (quoted : Bool) (pieces : List Piece) : List Piece :=
  if quoted then pieces else edge :: pieces ++ [edge]

/-- The characters of pieces, as a pattern. -/
def toPattern (pieces : List Piece) : Pattern :=
  pieces.filterMap fun
    | .char c quoted => some (c, quoted)
    | .blank c => some (c, false)
    | .separator c => some (c, false)
    | .cut => some (' ', true)
    | .edge | .mark => none

/-- The characters of pieces. -/
def toChars (pieces : List Piece) : List Char := (toPattern pieces).chars

/-- What stands in front of a piece. -/
inductive Before where
  /-- A field, the latest character first. -/
  | field (chars : Pattern)
  /-- A blank that ended a field. -/
  | blank
  /-- Nothing that a separator could belong to. -/
  | nothing

namespace Before

/-- The field in front, if there is one. -/
def ended : Before → List Pattern
  | field chars => [chars.reverse]
  | _ => []

/-- The characters of the field in front. -/
def chars : Before → Pattern
  | field chars => chars
  | _ => []

end Before

/-- Collects pieces into fields. -/
def fieldsFrom : Before → List Piece → List Pattern
  | before, [] => before.ended
  | before, .char c quoted :: ps => fieldsFrom (.field ((c, quoted) :: before.chars)) ps
  | before, .mark :: ps => fieldsFrom (.field before.chars) ps
  | .blank, .edge :: ps => fieldsFrom .nothing ps
  | before, .edge :: ps => fieldsFrom before ps
  | before, .cut :: ps => before.ended ++ fieldsFrom .nothing ps
  | .field chars, .blank _ :: ps => chars.reverse :: fieldsFrom .blank ps
  | before, .blank _ :: ps => fieldsFrom before ps
  | .field chars, .separator _ :: ps => chars.reverse :: fieldsFrom .nothing ps
  -- The separator ends no field of its own if the blank in front has ended one.
  | .blank, .separator _ :: ps => fieldsFrom .nothing ps
  | .nothing, .separator _ :: ps => [] :: fieldsFrom .nothing ps

/-- The fields that pieces make. -/
def toFields (pieces : List Piece) : List Pattern := fieldsFrom .nothing pieces

end Piece

namespace Shell

/-- The characters at which values are cut. -/
def separators (sh : Shell) : List Char := (sh.binding? ['I', 'F', 'S']).getD Piece.blanks

/-- The arguments in one text, with the first separator between them. -/
def joinedArgs (sh : Shell) : List Char := (sh.separators.take 1).intercalate sh.args

end Shell

/-! ## Reading a line into variables -/

/-- A character of a line; a quoted one is no separator. -/
abbrev LineChar := Char × Bool

/-- Cuts a line into a number of values, the last of which takes what is left.  Blanks at the ends
of values are dropped, and so is a single separator at the end of the last one. -/
def splitLine (separators : List Char) : Nat → List LineChar → List (List Char)
  | 0, _ => []
  | count + 1, s =>
    let isSeparator := fun (p : LineChar) => !p.2 && separators.contains p.1
    let isBlank := fun (p : LineChar) => isSeparator p && Piece.blanks.contains p.1
    let s := s.dropWhile isBlank
    let value := s.takeWhile (!isSeparator ·)
    let behind := s.drop value.length
    -- The separator between two values may have blanks around it.
    let rest := (behind.dropWhile isBlank)
    let rest := match rest with
      | p :: others => if isSeparator p && !isBlank p then others.dropWhile isBlank else p :: others
      | [] => []
    if count == 0 then
      if rest.isEmpty then [value.map Prod.fst]
      else [(s.reverse.dropWhile isBlank).reverse.map Prod.fst]
    else value.map Prod.fst :: splitLine separators count rest

end ParseAudit.Script
