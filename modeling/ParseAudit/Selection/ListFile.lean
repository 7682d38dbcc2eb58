import ParseAudit.Action
/-!
# List files

A list file holds one entry to a line.  Blanks at the end of a line do not count, and blank lines
are passed over.  A list file that is not there is no failure.
-/

namespace ParseAudit.ListFile

/-- The entries in the text of a list file. -/
def entries (text : String) : List String :=
  ((Text.lines text).map Text.trimEnd).filter fun line => !Text.isBlankText line

/-- The text of a list file with the given paths. -/
def text (files : FileSet) : String :=
  String.join (files.toList.map fun file => file.text ++ "\n")

/-- Reads the entries of a list file. -/
def read (t : FileTree) (path : String) : Traced (Option (List String)) :=
  if t.isFile path then do
    let text ← Traced.ofExcept (Except.within ("read list file: " ++ path) .file (t.readText path))
    let found := entries text
    Traced.log .debug .listFile
      ("read " ++ Text.natural found.length ++ " entries from " ++ path)
    return some found
  else do
    Traced.log .warn .listFile ("list file not found: " ++ path)
    return none

/-- Writes a list file; the directories on the way are made. -/
def write (path : String) (files : FileSet) : Action Unit := do
  Action.writeFile "write list file" path (text files)
  Action.log .debug .listFile
    ("wrote " ++ Text.natural files.size ++ " entries to " ++ path)

end ParseAudit.ListFile
