import ParseAudit.Failure
/-!
# Calls of the parser

One call runs a program with arguments in a directory.  What comes back is the text it printed and
its exit status, which a program that was killed does not have.
-/

namespace ParseAudit

/-- The variables of the environment. -/
abbrev Environment := List (String × String)

/-- One call of the parser. -/
structure Invocation where
  program : String
  args : List String
  /-- The directory that the program runs in. -/
  directory : String
  deriving DecidableEq, Repr

/-- What a call of the parser gives back. -/
structure CallResult where
  stdout : String
  status : Option Int
  deriving DecidableEq, Repr, Inhabited

end ParseAudit
