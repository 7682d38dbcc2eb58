import ParseAudit.Script.Shell
/-!
# Options of commands

Options are letters behind a minus sign, in front of the other arguments; two minus signs end them.
The options of the shell itself can also be switched off by a plus sign, and they have names.
-/

namespace ParseAudit.Script.Options

/-- Refuses an option. -/
def refuse {α : Type} (option : List Char) : Exec α :=
  Exec.fault (ofText "Illegal option " ++ option)

/-- The option letters of a command, all of which are allowed, and the arguments that follow. -/
def read (allowed : List Char) : List (List Char) → Exec (List Char × List (List Char))
  | [] => return ([], [])
  | ['-'] :: args => return ([], ['-'] :: args)
  | ['-', '-'] :: args => return ([], args)
  | ('-' :: letters) :: args => do
    match letters.find? (!allowed.contains ·) with
    | some letter => refuse ['-', letter]
    | none =>
      let (others, rest) ← read allowed args
      return (letters ++ others, rest)
  | args => return ([], args)

/-! ## Options of the shell -/

/-- Switches an option on or off. -/
def switch (letter : Char) (on : Bool) : Exec Unit :=
  if Shell.optionTable.any (·.2 == letter) then
    modify fun sh =>
      let others := sh.options.filter (· != letter)
      { sh with options := if on then letter :: others else others }
  else refuse ['-', letter]

/-- Switches an option with a name on or off. -/
def switchNamed (name : List Char) (on : Bool) : Exec Unit :=
  match Shell.optionTable.lookup (String.ofList name) with
  | some letter => switch letter on
  | none => refuse (['-', 'o', ' '] ++ name)

/-- Shows which options are on. -/
def showAll : Exec Unit := do
  let sh ← get
  let line := fun (name : String) (on : Bool) =>
    name.toList ++ List.replicate (16 - name.length) ' ' ++ ofText (if on then "on\n" else "off\n")
  Exec.print (ofText "Current option settings\n")
  Exec.print (Shell.optionTable.flatMap fun (name, letter) => line name (sh.isOn letter))
  Exec.print (["nolog", "debug"].flatMap fun name => line name false)

/-- What stands behind the options of the shell. -/
structure Rest where
  /-- Whether the first argument is a script. -/
  isScript : Bool
  /-- Whether the options were ended, so that even no arguments count as arguments. -/
  isEnded : Bool
  args : List (List Char)

/-- Follows the letters of one argument; each name of an option is taken from the arguments behind
it.  At the start of the shell a letter says that a script is among the arguments. -/
def followLetters (atStart on : Bool) : List Char → List (List Char) → Exec Rest
  | [], args => return ⟨false, false, args⟩
  | 'o' :: letters, name :: args => do
    switchNamed name on
    followLetters atStart on letters args
  | 'o' :: letters, [] => do
    showAll
    followLetters atStart on letters []
  | letter :: letters, args => do
    if atStart && letter == 'c' then
      return { ← followLetters atStart on letters args with isScript := true }
    switch letter on
    followLetters atStart on letters args

/-- Follows the options of the shell; the fuel bounds the number of arguments. -/
def followWithin (atStart : Bool) : Nat → List (List Char) → Exec Rest
  | fuel + 1, (sign :: letters) :: args => do
    if sign != '-' && sign != '+' then return ⟨false, false, (sign :: letters) :: args⟩
    if sign == '-' && (letters.isEmpty || letters == ['-']) then
      if letters.isEmpty && !atStart then switch 'x' false
      return ⟨false, letters == ['-'], args⟩
    let first ← followLetters atStart (sign == '-') letters args
    let others ← followWithin atStart fuel first.args
    return { others with isScript := first.isScript || others.isScript }
  | _, args => return ⟨false, false, args⟩

/-- Follows the options of the shell. -/
def follow (atStart : Bool) (args : List (List Char)) : Exec Rest :=
  followWithin atStart (args.length + 1) args

end ParseAudit.Script.Options
