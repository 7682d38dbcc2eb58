import ParseAudit.Action
/-!
# Parsers that stand in

A check can be tried out without a parser: a small script is written in its place.  One script
finds errors in files by their names, the other one shows a text that was laid down beside it.
-/

namespace ParseAudit.StandIn

/-- A script that reports an error for each of its arguments whose name hints at one. -/
def byName : String :=
  "#!/bin/sh\nstatus=0\nfor f in \"$@\"; do\n  case \"$f\" in\n    -*|parse) ;;\n"
    ++ "    *bad*|*oops*)\n      printf '%s\\t0.10 ms\\t(ERROR [1, 2] - [1, 5])\\n' \"$f\"\n"
    ++ "      status=1\n      ;;\n  esac\ndone\necho \"Total parses: $#\"\nexit $status\n"

/-- A script that shows a file, whatever its arguments are. -/
def showing (path : String) : String := "#!/bin/sh\ncat '" ++ path ++ "'\nexit 1\n"

/-- Writes a file whose directory is there. -/
def writeText (path content : String) : Action Unit :=
  Action.change path (·.write path (Octets.ofText content))

/-- Writes a script that can be run, and gives its path. -/
def writeScript (directory name script : String) : Action String := do
  let path := RepoPath.joinText directory name
  writeText path script
  Action.change path (·.makeExecutable path)
  return path

/-- Writes the parser that goes by the names of files. -/
def writeByName (directory : String) : Action String :=
  writeScript directory "fake-parser" byName

/-- Writes the parser that shows a text. -/
def writeShowing (directory text : String) : Action String := do
  let place := RepoPath.joinText directory "canned-output.txt"
  writeText place text
  writeScript directory "canned-parser" (showing place)

end ParseAudit.StandIn
