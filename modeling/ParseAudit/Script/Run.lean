import ParseAudit.Script.Call
/-!
# Running commands

One step runs a command, given what runs the commands within it.  Steps within steps run every
command whose depth and rounds stay within a bound; beyond it, a script counts as killed.
-/

namespace ParseAudit.Script

namespace Run

/-- Ends the script after a command that failed, if that is wanted and the command is not tested. -/
def checkStatus (tested : Bool) : Exec Unit := do
  let sh ← get
  if !tested && sh.status != 0 && sh.isOn 'e' then throw .exit

/-- The expansion of words by a runner. -/
def expansion (run : Runner) : Expansion := ⟨Process.outputOf run, false, false⟩

/-! ## Loops -/

/-- Does one round of a loop, and says whether the loop goes on. -/
def round (body : Exec Unit) : Exec Bool := do
  match ← Exec.attempt body with
  | none => return true
  | some (.leave n) => if n ≤ 1 then return false else throw (.leave (n - 1))
  | some (.again n) => if n ≤ 1 then return true else throw (.again (n - 1))
  | some stop => throw stop

/-- Runs a computation within one more loop. -/
def inLoop (body : Exec Unit) : Exec Unit := do
  let loops := (← get).loops
  modify ({ · with loops := loops + 1 })
  let stop ← Exec.attempt body
  modify ({ · with loops := loops })
  if let some stop := stop then throw stop

/-- Runs a command for each value of a variable. -/
def forEach (body : Exec Unit) (name : List Char) : List (List Char) → Exec Unit
  | [] => return ()
  | value :: values => do
    Exec.assign name value
    if ← round body then forEach body name values

/-- Repeats a body while a condition gives the expected answer.  The fuel bounds the rounds. -/
def repeatWhile (expected : Bool) (condition body : Exec Unit) : Nat → Nat → Exec Unit
  | 0, _ => throw (.killed 9)
  | fuel + 1, status => do
    let goesOn ← round condition
    if !goesOn then Exec.setStatus status
    else if ((← get).status == 0) == expected then
      let goesOn ← round body
      if goesOn then repeatWhile expected condition body fuel (← get).status
    else Exec.setStatus status

/-! ## Other commands -/

/-- Whether one of some patterns matches. -/
def matchesAny (e : Expansion) (subject : List Char) : List Word → Exec Bool
  | [] => return false
  | w :: ws => do
    if (← e.pattern w).isMatch subject then return true else matchesAny e subject ws

/-- The first branch with a pattern that matches. -/
def selected (e : Expansion) (subject : List Char) :
    List (List Word × Command) → Exec (Option Command)
  | [] => return none
  | (patterns, body) :: branches => do
    if ← matchesAny e subject patterns then return some body else selected e subject branches

/-- Runs two commands, each in a subshell; the second one reads what the first one prints. -/
def pipe (run : Runner) (first second : Exec Unit) : Exec Unit := do
  let text ← Exec.output (Process.subshell run first)
  Exec.withInput text (Process.subshell run second)

/-- The rounds that a loop may have. -/
def roundLimit : Nat := 1000000

/-- Runs a command, given what runs the commands within it. -/
def step (run : Runner) : Runner := fun tested command => do
  if (← get).isOn 'n' then return
  let e := expansion run
  match command with
  | .nothing => return ()
  | .simple line assignments words redirects =>
    Call.simple run tested e line assignments words redirects
    checkStatus tested
  | .inOrder first second =>
    run tested first
    run tested second
  | .andThen first second =>
    run true first
    if (← get).status == 0 then run tested second
  | .orElse first second =>
    run true first
    if (← get).status != 0 then run tested second
  | .not body =>
    run true body
    Exec.answer ((← get).status != 0)
  | .pipe first second =>
    pipe run (run tested first) (run tested second)
    checkStatus tested
  | .background body =>
    Exec.withInput [] (Process.subshell run (run false body))
    modify fun sh => { sh with besideStatus := some sh.status, status := 0 }
  | .forEach line name words body =>
    modify ({ · with line := line })
    let values ← e.fields words
    if values.isEmpty then Exec.setStatus 0
    inLoop (forEach (run tested body) name values)
  | .select line subject branches =>
    modify ({ · with line := line })
    let text ← e.text subject
    match ← selected e text branches with
    | none | some .nothing => Exec.setStatus 0
    | some body => run tested body
  | .branch condition yes no =>
    run true condition
    match (← get).status, no with
    | 0, _ => run tested yes
    | _, .nothing => Exec.setStatus 0
    | _, no => run tested no
  | .loop expected condition body =>
    inLoop (repeatWhile expected (run true condition) (run tested body) roundLimit 0)
  | .apart body =>
    Process.subshell run (run tested body)
    checkStatus tested
  | .redirected line body redirects =>
    modify ({ · with line := line })
    Exec.keepingStreams do
      if ← Redirection.applyAll e redirects then run tested body
  | .define name body =>
    modify fun sh =>
      { sh with functions := (name, body) :: sh.functions.filter (·.1 != name), status := 0 }

/-- Runs a command up to a depth. -/
def within : Nat → Runner
  | 0 => fun _ _ => throw (.killed 9)
  | depth + 1 => step (within depth)

/-- The depth that a script may have. -/
def depthLimit : Nat := 20000

/-- Runs a command. -/
def command : Runner := within depthLimit

end Run

end ParseAudit.Script
