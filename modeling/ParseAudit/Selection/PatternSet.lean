import ParseAudit.Failure
import ParseAudit.Glob.Matching
/-!
# Sets of patterns

A pattern selects files by their paths; one with a leading `!` excludes what it matches.  A pattern
is normalized like a path first, so it may be absolute or start with `./`; a pattern that matches a
directory covers everything beneath it.  Blank patterns and those that start with `#` say nothing.
The patterns that select, and those that exclude, must not nest too deep.
-/

namespace ParseAudit

/-- A pattern that is ready to be matched. -/
structure SelectionPattern where
  /-- Whether the pattern excludes what it matches. -/
  negated : Bool
  /-- What the pattern matches as it stands. -/
  itself : Glob.Compiled
  /-- What lies beneath a match. -/
  beneath : Glob.Compiled
  deriving Repr

namespace SelectionPattern

/-- The mark of an exclusion, and the text of the pattern after it. -/
def splitMark (text : List Char) : Bool × List Char :=
  match text with
  | '!' :: body => (true, Chars.trimStart body)
  | body => (false, body)

/-- The pattern for everything beneath the matches of a normalized pattern. -/
def beneathOf (pattern : RepoPath) : String :=
  if pattern.text = "." then "**" else pattern.text ++ "/**"

/-- Whether a trimmed pattern says nothing. -/
def saysNothing (text : List Char) : Bool := text.isEmpty || text.head? == some '#'

/-- Makes a trimmed pattern ready. -/
def compile (text : List Char) (base : String) : Except Failure SelectionPattern := do
  let (negated, body) := splitMark text
  let pattern := RepoPath.normalize (String.ofList body) base
  let context := "invalid glob pattern: " ++ String.ofList text
  let itself ← Except.within context .glob (Glob.compile pattern.text)
  let beneath ← Except.within context .glob (Glob.compile (beneathOf pattern))
  return ⟨negated, itself, beneath⟩

/-- Whether a pattern covers a path. -/
def covers (p : SelectionPattern) (path : RepoPath) : Bool :=
  p.itself.isMatch path.text || p.beneath.isMatch path.text

end SelectionPattern

/-- Patterns that select and exclude together. -/
structure PatternSet where
  patterns : List SelectionPattern
  deriving Repr

namespace PatternSet

/-- The trimmed patterns that say something. -/
def meaningful (patterns : List String) : List (List Char) :=
  (patterns.map fun pattern => Chars.trim pattern.toList).filter
    fun text => !SelectionPattern.saysNothing text

/-- The patterns that select. -/
def includes (s : PatternSet) : List SelectionPattern := s.patterns.filter (!·.negated)

/-- The patterns that exclude. -/
def excludes (s : PatternSet) : List SelectionPattern := s.patterns.filter (·.negated)

/-- Refuses patterns that nest too deep for a set. -/
def checkNesting (context : String) (patterns : List SelectionPattern) : Except Failure Unit :=
  Except.within context .globSet
    (Glob.checkNesting (patterns.flatMap fun p => [p.itself.tokens, p.beneath.tokens]))

/-- Makes patterns ready, seen from a base directory. -/
def compile (patterns : List String) (base : String) : Except Failure PatternSet := do
  let found ← (meaningful patterns).mapM (SelectionPattern.compile · base)
  let set : PatternSet := ⟨found⟩
  checkNesting "compile include globset" set.includes
  checkNesting "compile exclude globset" set.excludes
  return set

/-- Whether any pattern selects. -/
def hasIncludes (s : PatternSet) : Bool := !s.includes.isEmpty

/-- Whether a path is selected. -/
def isMatch (s : PatternSet) (path : RepoPath) : Bool :=
  s.includes.any (·.covers path) && !s.excludes.any (·.covers path)

end PatternSet

end ParseAudit
