import ParseAudit.Script.Format
import ParseAudit.Script.Redirection
/-!
# Arguments and inputs of tools

The tools of a system take letters as options, some of which have a value, anywhere among their
operands.  Most of them read the files that they are given, or the standard input if there are none.
-/

namespace ParseAudit.Script

/-- A tool, which takes its arguments. -/
abbrev Tool := List (List Char) → Exec Unit

namespace Tool

/-! ## Arguments -/

/-- The arguments of a tool: its options, each with its value if it has one, and its operands. -/
structure Arguments where
  options : List (Char × List Char)
  operands : List (List Char)

namespace Arguments

/-- Whether an option is given. -/
def has (a : Arguments) (option : Char) : Bool := a.options.any (·.1 == option)

/-- The value of an option; the last one counts. -/
def value? (a : Arguments) (option : Char) : Option (List Char) := a.options.reverse.lookup option

/-- The operands, or the standard input in their place. -/
def inputs (a : Arguments) : List (List Char) := if a.operands.isEmpty then [['-']] else a.operands

/-- Puts options in front. -/
def addOptions (options : List (Char × List Char)) (a : Arguments) : Arguments :=
  { a with options := options ++ a.options }

/-- Puts an operand in front. -/
def addOperand (operand : List Char) (a : Arguments) : Arguments :=
  { a with operands := operand :: a.operands }

end Arguments

/-- What a tool says to a wrong option. -/
def refuseOption (letter : Char) : List Char := ofText "invalid option -- '" ++ [letter, '\'']

/-- What a tool says to an option without its value. -/
def missingValue (letter : Char) : List Char :=
  ofText "option requires an argument -- '" ++ [letter, '\'']

/-- The options that the letters of an argument give, and whether the last one still lacks its
value. -/
def readLetters (flags valued : List Char) :
    List Char → Except (List Char) (List (Char × List Char) × Option Char)
  | [] => .ok ([], none)
  | c :: cs =>
    if valued.contains c then if cs.isEmpty then .ok ([], some c) else .ok ([(c, cs)], none)
    else if flags.contains c then
      (readLetters flags valued cs).map fun (options, open?) => ((c, []) :: options, open?)
    else .error (refuseOption c)

/-- Reads the arguments of a tool, given the letters of its options and of those with a value. -/
def readArguments (flags valued : List Char) :
    List (List Char) → Except (List Char) Arguments
  | [] => .ok ⟨[], []⟩
  | ['-', '-'] :: args => .ok ⟨[], args⟩
  | ('-' :: c :: cs) :: args => do
    match ← readLetters flags valued (c :: cs) with
    | (options, none) => return (← readArguments flags valued args).addOptions options
    | (options, some letter) =>
      match args with
      | value :: args =>
        return (← readArguments flags valued args).addOptions (options ++ [(letter, value)])
      | [] => .error (missingValue letter)
  | arg :: args => do return (← readArguments flags valued args).addOperand arg

/-- Says what is wrong, in the name of a tool. -/
def complain (name : String) (text : List Char) (status : Nat) : Exec Unit := do
  Exec.remark (ofText (name ++ ": ") ++ text)
  Exec.setStatus status

/-- Says where the use of a tool is explained. -/
def hint (name : String) : Exec Unit :=
  Exec.remark (ofText ("Try '" ++ name ++ " --help' for more information."))

/-- Says what is wrong with the use of a tool. -/
def misuse (name : String) (text : List Char) (status : Nat) : Exec Unit := do
  complain name text status
  hint name

/-- A tool by its name, its letters, the status for a wrong use and what it does. -/
def make (name : String) (flags valued : String) (status : Nat) (body : Arguments → Exec Unit) :
    Tool := fun args => do
  Exec.setStatus 0
  match readArguments flags.toList valued.toList args with
  | .ok arguments => body arguments
  | .error text => misuse name text status

/-- Asks for more operands. -/
def missingOperand (name : String) : Exec Unit := misuse name (ofText "missing operand") 1

/-! ## Inputs -/

/-- A name between quotes. -/
def inQuotes (path : List Char) : List Char := '\'' :: path ++ ['\'']

/-- The description of a file error. -/
def reason (e : FileError) : List Char := ofText (": " ++ e.description)

/-- The content of an input, which is a file or the standard input. -/
def contentOf (path : List Char) : Exec (Except FileError (List Char)) := do
  if path == ['-'] then return .ok (← Exec.readAll) else return (← get).contentOf path

/-- Does something with the content of each input; `refuse` words the errors. -/
def forInputs (name : String) (status : Nat) (refuse : List Char → FileError → List Char)
    (paths : List (List Char)) (use : List Char → List Char → Exec Unit) : Exec Unit := do
  for path in paths do
    match ← contentOf path with
    | .ok content => use path content
    | .error e => complain name (refuse path e) status

/-- The usual wording of an error: the path and what is wrong with it. -/
def plainly (path : List Char) (e : FileError) : List Char := path ++ reason e

/-- The lines of a text; a last one without an end counts, too. -/
def linesOf (text : List Char) : List (List Char) :=
  let pieces := text.splitOnP (· == '\n')
  if pieces.getLast? == some [] then pieces.dropLast else pieces

/-- Lines with their ends. -/
def joinLines (lines : List (List Char)) : List Char := lines.flatMap (· ++ ['\n'])

/-- The lines of all inputs. -/
def allLines (name : String) (status : Nat) (refuse : List Char → FileError → List Char)
    (paths : List (List Char)) : Exec (List (List Char)) := do
  let mut found := []
  for path in paths do
    match ← contentOf path with
    | .ok content => found := found ++ linesOf content
    | .error e => complain name (refuse path e) status
  return found

/-- A number with blanks in front, up to a width. -/
def padded (width n : Nat) : List Char :=
  let digits := naturalChars n
  List.replicate (width - digits.length) ' ' ++ digits

end Tool

end ParseAudit.Script
