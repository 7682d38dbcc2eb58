import ParseAudit.Region
/-!
# The line grammar of parser output

One line of quiet parser output names a file and may carry an error node:

    line   :=  path [ gap rest ]
    rest   :=  any text that does not end in `)`                     the file is clean
            |  text `(` label point ` - ` point `)`                  an error node
    point  :=  `[` row `,` column `]`                                from zero, blanks allowed

The path ends at the first space or tab.  Text between the path and the first `(`, such as timing
columns, says nothing.  A rest that ends in `)` and is no error node is a `LineError`; it is never
taken for a clean file.
-/

namespace ParseAudit

/-- Why a line does not follow the grammar. -/
inductive LineError where
  | empty
  | missingOpenParen
  | missingRangeSeparator
  | malformedPoint (text : String)
  | invalidCoordinate (text : String)
  | emptyLabel
  deriving DecidableEq, Repr

namespace LineError

/-- The wording of a line error. -/
def message : LineError → String
  | empty => "empty output line"
  | missingOpenParen => "error node is missing its opening parenthesis"
  | missingRangeSeparator => "error node is missing the ` - ` range separator"
  | malformedPoint text => "malformed point `" ++ text ++ "` (expected `[row, column]`)"
  | invalidCoordinate text =>
    "invalid coordinate `" ++ text ++ "` (expected a non-negative integer)"
  | emptyLabel => "error node has an empty label"

end LineError

namespace Line

/-- Spaces and tabs part the path from the rest. -/
def isGap (c : Char) : Bool := c == ' ' || c == '\t'

/-! ## Cutting a line into path and rest -/

/-- The text up to the first gap, and the trimmed remainder. -/
def splitToken (line : List Char) : List Char × List Char :=
  let line := Chars.trim line
  (line.takeWhile (!isGap ·), Chars.trim (line.dropWhile (!isGap ·)))

/-- A place between two characters of a text, or at its end. -/
structure Cut where
  /-- What stands before the place, last character first. -/
  passed : List Char
  /-- What stands after the place. -/
  after : List Char
  deriving DecidableEq, Repr

namespace Cut

/-- The path that ends at a cut. -/
def path (cut : Cut) : List Char := Chars.trimEnd cut.passed.reverse

/-- The trimmed remainder after a cut. -/
def rest (cut : Cut) : List Char := Chars.trim cut.after

end Cut

/-- The cuts before a gap or at the end of what follows the passed text, in front of the cuts found
so far. -/
def cutsFrom (passed : List Char) (found : List Cut) : List Char → List Cut
  | [] => ⟨passed, []⟩ :: found
  | c :: cs =>
    let found := if isGap c then ⟨passed, c :: cs⟩ :: found else found
    cutsFrom (c :: passed) found cs

/-- Every way to cut a trimmed line before a gap or at its end, latest cut first. -/
def cuts (line : List Char) : List Cut :=
  match Chars.trim line with
  | [] => []
  | text => cutsFrom [] [] text

/-- Every way to read a line as a path and the trimmed remainder, longest path first.  A path may
hold spaces: whoever knows which paths to expect can find it among the candidates. -/
def candidates (line : List Char) : List (List Char × List Char) :=
  (cuts line).map fun cut => (cut.path, cut.rest)

/-! ## Error nodes -/

/-- A coordinate: a natural number below 2^32, with blanks around it. -/
def coordinate (s : List Char) : Except LineError UInt32 :=
  let s := Chars.trim s
  match Chars.naturalBelow? UInt32.size s with
  | some n => .ok (UInt32.ofNat n)
  | none => .error (.invalidCoordinate (String.ofList s))

/-- A point in brackets, with blanks around it. -/
def point (s : List Char) : Except LineError Point := do
  let s := Chars.trim s
  let parts := do
    let inner ← Chars.stripStart? ['['] s
    let inner ← Chars.stripEnd? [']'] inner
    Chars.splitFirst [','] inner
  match parts with
  | none => .error (.malformedPoint (String.ofList s))
  | some (row, column) =>
    let row ← coordinate row
    let column ← coordinate column
    return ⟨row, column⟩

/-- The error node in a rest that ends in `)`: from its first `(` to its end. -/
def errorNode (rest : List Char) : Except LineError Region :=
  match Chars.splitFirst ['('] rest with
  | none => .error .missingOpenParen
  | some (_, node) =>
    match Chars.splitLast [' ', '-', ' '] node.dropLast with
    | none => .error .missingRangeSeparator
    | some (head, stop) =>
      match Chars.splitLast ['['] head with
      | none => .error (.malformedPoint (String.ofList (Chars.trim head)))
      | some (label, start) =>
        let label := Chars.trim label
        if label.isEmpty then .error .emptyLabel
        else do
          let start ← point ('[' :: start)
          let stop ← point stop
          return Region.ofPoints (String.ofList label) start stop

/-- The error node that a rest carries, if it ends in `)`. -/
def regionOf (rest : List Char) : Except LineError (Option Region) :=
  if rest.getLast? = some ')' then some <$> errorNode rest else .ok none

/-! ## Records -/

/-- The record of a line that is cut into path and rest; `raw` is the whole trimmed line. -/
def recordOfParts (path rest raw : List Char) (base : String) : Except LineError Record :=
  if path.isEmpty then .error .empty
  else do
    let region ← regionOf rest
    return ⟨.normalize (String.ofList path) base, region, String.ofList raw⟩

/-- The record of a line whose path is its first token, seen from a base directory. -/
def recordFrom (line : List Char) (base : String) : Except LineError Record :=
  let text := Chars.trim line
  if text.isEmpty then .error .empty
  else
    let (path, rest) := splitToken text
    recordOfParts path rest text base

/-- The record of a line whose path is its first token. -/
def record (line : List Char) : Except LineError Record := recordFrom line ""

end Line

end ParseAudit
