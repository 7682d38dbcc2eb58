import ParseAudit.Glob.Matching
import ParseAudit.Text.Natural
/-!
# How deep patterns may nest

Regular expressions are limited in how deep they nest, and a set with a deeper pattern is refused.
A pattern that waits for an extension has an expression of its own; the others that need the whole
path are put together, and a deep one is named by its place among them.  Patterns for the last
segment alone hold no groups, and so are never deep.
-/

namespace ParseAudit.Glob

/-! ## The expression for a pattern -/

namespace Token

/-- The characters that mean something in an expression and are written after a backslash. -/
def metaChars : List Char :=
  ['\\', '.', '+', '*', '?', '(', ')', '|', '[', ']', '\x7b', '\x7d', '^', '$', '#', '&', '-', '~']

/-- A character in an expression; outside ASCII each of its octets is spelled out. -/
def writtenChar (c : Char) : String :=
  if metaChars.contains c then String.ofList ['\\', c]
  else if c.toNat < 0x80 then c.toString
  else String.join ((String.utf8EncodeChar c).map fun b =>
    "\\x" ++ String.ofList (Nat.toDigits 16 b.toNat))

/-- A member of a class in an expression. -/
def writtenRange (range : Char × Char) : String :=
  if range.1 = range.2 then writtenChar range.1
  else writtenChar range.1 ++ "-" ++ writtenChar range.2

mutual

/-- The expression for a token as text. -/
def written : Token → String
  | .literal c => writtenChar c
  | .any => "[^/]"
  | .zeroOrMore => "[^/]*"
  | .recursiveStart => "(?:/?|.*/)"
  | .recursiveEnd => "/.*"
  | .recursiveMiddle => "(?:/|/.*/)"
  | .charClass negated ranges =>
    "[" ++ (if negated then "^" else "") ++ String.join (ranges.map writtenRange) ++ "]"
  | .alternates branches =>
    match writtenBranches branches with
    | [] => ""
    | parts => "(?:" ++ "|".intercalate parts ++ ")"

/-- The expression for tokens one after another as text. -/
def writtenAll : List Token → String
  | [] => ""
  | token :: rest => written token ++ writtenAll rest

/-- The expressions for the branches that say anything as texts. -/
def writtenBranches : List (List Token) → List String
  | [] => []
  | branch :: rest =>
    if saysNothing branch then writtenBranches rest
    else writtenAll branch :: writtenBranches rest

end

/-- How many parts of an expression stand for a token. -/
def partCount : Token → Nat
  | .literal c => c.utf8Size
  | .recursiveEnd => 2
  | .alternates branches => if allSayNothing branches then 0 else 1
  | _ => 1

/-- Whether tokens take more than one part of an expression. -/
def isSequence (tokens : List Token) : Bool := 1 < (tokens.map partCount).foldl (· + ·) 0

mutual

/-- How deep the expression for a token nests. -/
def nesting : Token → Nat
  | .literal _ => 0
  | .any => 1
  | .zeroOrMore => 2
  | .recursiveStart => 4
  | .recursiveEnd => 1
  | .recursiveMiddle => 4
  | .charClass _ ranges => if 1 < (ranges.flatMap classItems).length then 2 else 1
  | .alternates branches =>
    match (branches.filter (!saysNothing ·)).length with
    | 0 => 0
    | 1 => 1 + branchNesting branches
    -- Several branches are one level more: they stand side by side within the group.
    | _ => 2 + branchNesting branches

/-- How deep the expression for the deepest of some tokens nests. -/
def nestingAll : List Token → Nat
  | [] => 0
  | token :: rest => max (nesting token) (nestingAll rest)

/-- How deep the expression for the deepest of some branches nests. -/
def branchNesting : List (List Token) → Nat
  | [] => 0
  | branch :: rest =>
    max ((if isSequence branch then 1 else 0) + nestingAll branch) (branchNesting rest)

end

end Token

/-- The expression for a whole pattern as text. -/
def written (tokens : List Token) : String :=
  let body := match tokens with
    | [.recursiveStart] => ".*"
    | tokens => Token.writtenAll tokens
  "(?-u)^" ++ body ++ "$"

/-- How deep expressions may nest. -/
def maxNesting : Nat := 250

/-- Whether the expression for a pattern nests too deep.  The whole is a sequence by itself. -/
def nestsTooDeep (tokens : List Token) : Bool := maxNesting < 1 + Token.nestingAll tokens

/-! ## Sets -/

/-- A pattern of a set that nests too deep. -/
inductive NestingError where
  /-- The expression of a pattern that waits for an extension. -/
  | alone (expression : String)
  /-- The place of the pattern among those that are put together. -/
  | together (place : Nat)
  deriving DecidableEq, Repr

namespace NestingError

/-- The wording of a nesting error. -/
def message : NestingError → String
  | alone expression => "error parsing glob '" ++ expression ++ "': error parsing pattern 0"
  | together place => "error parsing pattern " ++ Text.natural place

end NestingError

/-- The patterns of a list that are matched in a way. -/
def matchedBy (strategy : Strategy) (patterns : List (List Token)) : List (List Token) :=
  patterns.filter (Strategy.ofTokens · == strategy)

/-- Refuses a set with a pattern that nests too deep.  Expressions that stand alone are looked at
first. -/
def checkNesting (patterns : List (List Token)) : Except NestingError Unit :=
  match (matchedBy .extension patterns).find? nestsTooDeep with
  | some tokens => .error (.alone (written tokens))
  | none =>
    match (matchedBy .expression patterns).findIdx? nestsTooDeep with
    | some place => .error (.together place)
    | none => .ok ()

end ParseAudit.Glob
