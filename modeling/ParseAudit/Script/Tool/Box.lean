import ParseAudit.Script.Test
import ParseAudit.Script.Tool.Edit
import ParseAudit.Script.Tool.Files
import ParseAudit.Script.Tool.Lines
import ParseAudit.Script.Tool.Search
/-!
# The tools of a system

All tools by their names.  Some of them are builtin commands as well, but a tool that prints a text
leaves its escapes alone unless it is told to replace them.
-/

namespace ParseAudit.Script.Tool

/-- The options in front of the texts to print: whether the line stays open, and whether escapes
are replaced. -/
def echoOptions (isOpen escapes : Bool) : List (List Char) → Bool × Bool × List (List Char)
  | ('-' :: c :: letters) :: args =>
    if (c :: letters).all fun c => ['n', 'e', 'E'].contains c then
      let last := ((c :: letters).filter (· != 'n')).getLast?
      echoOptions (isOpen || (c :: letters).contains 'n')
        (match last with
          | some c => c == 'e'
          | none => escapes) args
    else (isOpen, escapes, ('-' :: c :: letters) :: args)
  | args => (isOpen, escapes, args)

/-- Prints its arguments. -/
def echo : Tool := fun args => do
  let (isOpen, escapes, args) := echoOptions false false args
  let text := [' '].intercalate args
  let (text, short) := if escapes then Format.unescape text else (text, false)
  Exec.print (if isOpen || short then text else text ++ ['\n'])
  Exec.setStatus 0

/-- Shows the directory. -/
def pwd : Tool := fun _ => do
  Exec.printLine ('/' :: ['/'].intercalate ((← get).tree.directory.map ofOctets))
  Exec.setStatus 0

/-- The tool with the given name. -/
def find? (name : String) : Option Tool :=
  match name with
  | "true" | "sleep" | "sync" => some fun _ => Exec.setStatus 0
  | "false" => some fun _ => Exec.setStatus 1
  | "echo" => some echo
  | "printf" => some Format.printf
  | "test" | "[" => some (Test.run name.toList)
  | "pwd" => some pwd
  | "cat" => some cat
  | "tee" => some tee
  | "ls" => some ls
  | "mkdir" => some mkdir
  | "rmdir" => some rmdir
  | "rm" => some rm
  | "touch" => some touch
  | "ln" => some ln
  | "readlink" => some readlink
  | "chmod" => some chmod
  | "basename" => some basename
  | "dirname" => some dirname
  | "cp" => some cp
  | "mv" => some mv
  | "head" => some head
  | "tail" => some tail
  | "wc" => some wc
  | "sort" => some sort
  | "uniq" => some uniq
  | "tac" => some tac
  | "rev" => some rev
  | "tr" => some tr
  | "cut" => some cut
  | "seq" => some seq
  | "grep" => some grep
  | "sed" => some sed
  | _ => none

end ParseAudit.Script.Tool
