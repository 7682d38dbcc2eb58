import ParseAudit.Glob.Regular
import ParseAudit.Glob.Strategy
/-!
# What a glob pattern matches

Patterns are matched against the octets of a path.  `?` stands for one octet other than the slash,
a class for one octet out of those that write its members, and a group for one of its branches that
says anything; a group without such a branch says nothing.
-/

namespace ParseAudit.Glob

namespace Token

/-! ## Classes -/

/-- The octets that a member of a class puts in: those of both ends, and a range from the last one
of the first end to the first one of the second end. -/
def classItems (range : Char × Char) : List (UInt8 × UInt8) :=
  let low := String.utf8EncodeChar range.1
  if range.1 = range.2 then low.map fun b => (b, b)
  else
    let high := String.utf8EncodeChar range.2
    -- Octets in front of the last one of `low`, and after the first one of `high`, stand alone.
    low.dropLast.map (fun b => (b, b))
      ++ [(low.getLastD 0, high.headD 0)]
      ++ high.tail.map (fun b => (b, b))

/-- The octets of a class. -/
def classOctets (negated : Bool) (ranges : List (Char × Char)) : OctetClass :=
  .ranges negated (ranges.flatMap classItems)

/-! ## Expressions -/

/-- Any octets at all. -/
def anything : Regular := .many .all

/-- One slash. -/
def slash : Regular := .octet (.one OctetClass.slash)

mutual

/-- Whether tokens say nothing at all. -/
def saysNothing : List Token → Bool
  | [] => true
  | .alternates branches :: rest => allSayNothing branches && saysNothing rest
  | _ :: _ => false

/-- Whether no branch says anything. -/
def allSayNothing : List (List Token) → Bool
  | [] => true
  | branch :: rest => saysNothing branch && allSayNothing rest

end

mutual

/-- The expression for a token, followed by another expression. -/
def regular (next : Regular) : Token → Regular
  | .literal c =>
    (String.utf8EncodeChar c).foldr (fun b r => .seq (.octet (.one b)) r) next
  | .any => .seq (.octet .noSlash) next
  | .zeroOrMore => .seq (.many .noSlash) next
  | .recursiveStart => .seq (.alt (.alt .empty slash) (.seq anything slash)) next
  | .recursiveEnd => .seq (.seq slash anything) next
  | .recursiveMiddle => .seq (.alt slash (.seq slash (.seq anything slash))) next
  | .charClass negated ranges => .seq (.octet (classOctets negated ranges)) next
  | .alternates branches =>
    match branchRegular branches with
    | some r => .seq r next
    | none => next

/-- The expression for tokens one after another. -/
def regularAll : List Token → Regular
  | [] => .empty
  | token :: rest => regular (regularAll rest) token

/-- The expression for the branches that say anything, if there is one. -/
def branchRegular : List (List Token) → Option Regular
  | [] => none
  | branch :: rest =>
    if saysNothing branch then branchRegular rest
    else
      match branchRegular rest with
      | some r => some (.alt (regularAll branch) r)
      | none => some (regularAll branch)

end

end Token

/-- Whether the last segment of a path is `..`. -/
def endsInParent (path : List Char) : Bool :=
  path == ['.', '.'] || ['/', '.', '.'].isSuffixOf path

/-- The expression for a whole pattern; `**` alone stands for everything. -/
def regular (tokens : List Token) : Regular :=
  match tokens with
  | [.recursiveStart] => Token.anything
  | tokens => Token.regularAll tokens

/-- A pattern that is ready to be matched. -/
structure Compiled where
  tokens : List Token
  regular : Regular
  strategy : Strategy
  deriving Repr

namespace Compiled

/-- Makes a pattern ready. -/
def ofTokens (tokens : List Token) : Compiled :=
  ⟨tokens, Glob.regular tokens, .ofTokens tokens⟩

/-- Whether a pattern matches a path. -/
def isMatch (g : Compiled) (path : String) : Bool :=
  g.regular.accepts (Octets.ofText path)
    && !(g.strategy.wantsName && endsInParent path.toList)

end Compiled

/-- Reads a pattern and makes it ready. -/
def compile (pattern : String) : Except Error Compiled := .ofTokens <$> parse pattern

end ParseAudit.Glob
