import ParseAudit.Glob.Pattern
/-!
# How a pattern is matched

Patterns are compared as plain text where that is enough, else by a regular expression; and with the
whole path, or with its last segment alone where no other segment counts.  The segment `..` is not
the name of anything and has no extension, so a pattern that asks for either never matches a path
that ends in it.  For an expression it is text like any other.
-/

namespace ParseAudit.Glob

namespace Token

/-- Whether a token is a character of plain text. -/
def isLiteral : Token → Bool
  | .literal _ => true
  | _ => false

/-- Whether a token is the given character of plain text. -/
def isChar (c : Char) : Token → Bool
  | .literal d => c == d
  | _ => false

/-- Whether a token is a character of plain text within a segment. -/
def isSegmentLiteral (t : Token) : Bool := t.isLiteral && !t.isChar '/'

/-- Whether a token stands for nothing with a slash.  A group may, for all that is asked of it. -/
def staysInSegment : Token → Bool
  | .literal c => c != '/'
  | .any => true
  | .zeroOrMore => true
  | .charClass negated ranges =>
    ranges.any (fun (low, high) => low ≤ '/' && '/' ≤ high) == negated
  | _ => false

end Token

/-- How a pattern is matched. -/
inductive Strategy where
  /-- As plain text, with the whole path, its start or its end. -/
  | text
  /-- As plain text, with the last segment or its extension. -/
  | lastText
  /-- By an expression, with the last segment. -/
  | lastExpression
  /-- By an expression, with the whole path once the extension of the last segment fits. -/
  | extension
  /-- By an expression, with the whole path. -/
  | expression
  deriving DecidableEq, Repr

namespace Strategy

/-- Whether tokens are a literal `.` and plain text without points and slashes. -/
def isExtension : List Token → Bool
  | .literal '.' :: rest => rest.all fun t => t.isSegmentLiteral && !t.isChar '.'
  | _ => false

/-- Whether a pattern names the last segment or its extension as plain text. -/
def isLastText : List Token → Bool
  | .recursiveStart :: .zeroOrMore :: rest => isExtension rest
  | .recursiveStart :: rest => !rest.isEmpty && rest.all Token.isSegmentLiteral
  | _ => false

/-- Whether a pattern is plain text, but perhaps for any segments in front or behind. -/
def isText : List Token → Bool
  | .recursiveStart :: rest => !rest.isEmpty && rest.all Token.isLiteral
  | tokens =>
    match tokens.reverse with
    | .recursiveEnd :: rest => rest.all Token.isLiteral
    | _ => !tokens.isEmpty && tokens.all Token.isLiteral

/-- Whether a pattern ends in a literal extension. -/
def endsInExtension (tokens : List Token) : Bool :=
  let isOther := fun (t : Token) => t.isSegmentLiteral && !t.isChar '.'
  (tokens.reverse.dropWhile isOther).head?.any (Token.isChar '.')

/-- Whether a pattern says something of the last segment, and of nothing else. -/
def isLastExpression : List Token → Bool
  | .recursiveStart :: rest => !rest.isEmpty && rest.all Token.staysInSegment
  | _ => false

/-- The way in which a pattern is matched. -/
def ofTokens (tokens : List Token) : Strategy :=
  if isLastText tokens then lastText
  else if isText tokens then text
  else if endsInExtension tokens then extension
  else if isLastExpression tokens then lastExpression
  else expression

/-- Whether the last segment must be a name, perhaps with an extension. -/
def wantsName : Strategy → Bool
  | lastText => true
  | extension => true
  | _ => false

end Strategy

end ParseAudit.Glob
