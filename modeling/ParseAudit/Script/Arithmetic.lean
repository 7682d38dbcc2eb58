import ParseAudit.Script.Cursor
import ParseAudit.Script.Shell
/-!
# Arithmetic

Scripts count in whole numbers of 64 bits.  An expression is evaluated while it is read by
precedence, so that its effects on variables come before a mistake that stands behind them.
-/

namespace ParseAudit.Script

/-! ## Numbers in texts -/

/-- The digits of a base at the start of a text, as a number, and the text after them. -/
def readDigits (base : Nat) (s : List Char) : Option (Nat × List Char) :=
  let digits := s.takeWhile fun c => (hexValue? c).any (· < base)
  if digits.isEmpty then none
  else some (digits.foldl (fun n c => n * base + (hexValue? c).getD 0) 0, s.drop digits.length)

/-- The natural number at the start of a text: hexadecimal after `0x`, octal after `0`, else
decimal. -/
def readNatural (s : List Char) : Option (Nat × List Char) :=
  match s with
  | '0' :: x :: rest =>
    match if x == 'x' || x == 'X' then readDigits 16 rest else none with
    | some found => some found
    | none => readDigits 8 s
  | s => readDigits 10 s

/-- The number at the start of a text, with a sign, after blanks. -/
def readInteger (decimal : Bool) (s : List Char) : Option (Int × List Char) :=
  let natural := fun s => if decimal then readDigits 10 s else readNatural s
  match withoutSpace s with
  | '-' :: rest => (natural rest).map fun (n, rest) => (-(n : Int), rest)
  | '+' :: rest => (natural rest).map fun (n, rest) => ((n : Int), rest)
  | rest => (natural rest).map fun (n, rest) => ((n : Int), rest)

/-- A decimal number with blanks around it. -/
def integer? (s : List Char) : Option Int :=
  match readInteger true s with
  | some (n, rest) => if (withoutSpace rest).isEmpty then some n else none
  | none => none

/-! ## Operations -/

/-- The operations with two operands that are always evaluated. -/
inductive BinaryOp where
  | mul | div | rem | add | sub | shiftLeft | shiftRight
  | lt | le | gt | ge | eq | ne | bitAnd | bitXor | bitOr
  deriving DecidableEq

namespace Arith

/-- The number of values of a number of 64 bits. -/
def wordSize : Nat := 18446744073709551616

/-- A number as it is read: the nearest one of 64 bits. -/
def clamp (n : Int) : Int := max (-9223372036854775808) (min n 9223372036854775807)

/-- A number of 64 bits, by its value modulo their number. -/
def wrap (n : Int) : Int := n.bmod wordSize

/-- The bits of a number. -/
def bits (n : Int) : Nat := (n.emod wordSize).toNat

/-- The value of an operation; there is none for a division by zero. -/
def result? (op : BinaryOp) (m n : Int) : Option Int :=
  let truth := fun (b : Bool) => some (if b then 1 else 0)
  match op with
  | .mul => some (wrap (m * n))
  | .div => if n = 0 then none else some (wrap (m.tdiv n))
  | .rem => if n = 0 then none else some (wrap (m.tmod n))
  | .add => some (wrap (m + n))
  | .sub => some (wrap (m - n))
  | .shiftLeft => some (wrap (m * Nat.pow 2 (bits n % 64)))
  | .shiftRight => some (m.fdiv (Nat.pow 2 (bits n % 64)))
  | .lt => truth (m < n)
  | .le => truth (m ≤ n)
  | .gt => truth (m > n)
  | .ge => truth (m ≥ n)
  | .eq => truth (m == n)
  | .ne => truth (m != n)
  | .bitAnd => some (wrap (Nat.land (bits m) (bits n)))
  | .bitXor => some (wrap (Nat.xor (bits m) (bits n)))
  | .bitOr => some (wrap (Nat.lor (bits m) (bits n)))

/-- The operations with two operands: their signs and how tightly they bind. -/
def operators : List (String × BinaryOp × Nat) := [
  ("*", .mul, 10), ("/", .div, 10), ("%", .rem, 10), ("+", .add, 9), ("-", .sub, 9),
  ("<<", .shiftLeft, 8), (">>", .shiftRight, 8), ("<=", .le, 7), (">=", .ge, 7), ("<", .lt, 7),
  (">", .gt, 7), ("==", .eq, 6), ("!=", .ne, 6), ("&", .bitAnd, 5), ("^", .bitXor, 4),
  ("|", .bitOr, 3)]

/-- All signs, the longer ones first. -/
def signs : List String :=
  ["<<=", ">>=", "&&", "||", "<<", ">>", "<=", ">=", "==", "!=", "*=", "/=", "%=", "+=", "-=",
    "&=", "^=", "|=", "*", "/", "%", "+", "-", "<", ">", "&", "^", "|", "!", "~", "(", ")", "?",
    ":", "="]

/-! ## Numbers of a script -/

/-- Says what is wrong with an expression and stops. -/
def refuse {α : Type} (source : List Char) (reason : String) : Exec α :=
  Exec.fault (ofText ("arithmetic expression: " ++ reason ++ ": \"") ++ source ++ ['"'])

/-- The number that a variable holds; one without digits holds zero. -/
def valueOf (x : List Char) : Exec Int := do
  let text := ((← get).binding? x).getD []
  let (n, rest) := (readInteger false text).getD (0, text)
  if (withoutSpace rest).isEmpty && clamp n == n then return n
  else Exec.fault (ofText "Illegal number: " ++ text)

/-- The value of an operation on two numbers.  A quotient beyond all numbers kills the script. -/
def compute (source : List Char) (op : BinaryOp) (m n : Int) : Exec Int := do
  if (op == .div || op == .rem) && m == clamp (-wordSize) && n == -1 then throw (.killed 8)
  match result? op m n with
  | some k => return k
  | none => refuse source "division by zero"

/-! ## Expressions -/

/-- An expression while it is evaluated. -/
structure Evaluation where
  source : List Char
  /-- What is left to be read. -/
  rest : List Char

/-- Reads and evaluates a part of an expression. -/
abbrev Calculation := StateT Evaluation Exec

/-- Says what is wrong with the expression and stops. -/
def wrong {α : Type} (reason : String) : Calculation α := do refuse (← get).source reason

/-- Moves over a number of characters. -/
def skip (n : Nat) : Calculation Unit := modify fun e => { e with rest := e.rest.drop n }

/-- What is left after blanks. -/
def nextText : Calculation (List Char) := do
  modify fun e => { e with rest := e.rest.dropWhile fun c => c == ' ' || c == '\t' || c == '\n' }
  return (← get).rest

/-- The sign that stands next. -/
def sign? : Calculation (Option String) := do
  let s ← nextText
  return signs.find? fun text => text.toList.isPrefixOf s

/-- Moves over a sign if it stands next. -/
def takeSign (text : String) : Calculation Bool := do
  if (← sign?) == some text then
    skip text.length
    return true
  else return false

/-- The operation that a sign does before it sets a variable, if the sign sets one. -/
def storing? (sign : String) : Option (Option BinaryOp) :=
  if sign == "=" then some none
  else (operators.find? fun (text, _, level) =>
    -- The signs of comparisons look like that, too.
    level != 6 && level != 7 && text ++ "=" == sign).map fun (_, op, _) => some op

/-- Moves over a variable and the sign that sets it, if they stand next. -/
def takeTarget : Calculation (Option (List Char × Option BinaryOp)) := do
  let before ← get
  let s ← nextText
  let name := s.takeWhile isNameChar
  if !isName name then return none
  skip name.length
  let sign := (← sign?).getD ""
  match storing? sign with
  | some op =>
    skip sign.length
    return some (name, op)
  | none =>
    set before
    return none

mutual

/-- Sets a variable, or evaluates what sets none.  What is not live is only read. -/
def assignment (fuel : Nat) (live : Bool) : Calculation Int :=
  match fuel with
  | 0 => wrong "expression too deep"
  | fuel + 1 => do
    match ← takeTarget with
    | none => choice fuel live
    | some (name, op) =>
      let n ← assignment fuel live
      if !live then return n
      let n ← match op with
        | some op => do compute (← get).source op (← valueOf name) n
        | none => pure n
      Exec.assign name (integerChars n)
      return n

/-- Evaluates one of two expressions, or what is no choice. -/
def choice (fuel : Nat) (live : Bool) : Calculation Int :=
  match fuel with
  | 0 => wrong "expression too deep"
  | fuel + 1 => do
    let condition ← disjunction fuel live
    if ← takeSign "?" then
      let yes ← assignment fuel (live && condition != 0)
      if !(← takeSign ":") then wrong "expecting ':'"
      let no ← choice fuel (live && condition == 0)
      return if condition != 0 then yes else no
    else return condition

/-- Evaluates a disjunction. -/
def disjunction (fuel : Nat) (live : Bool) : Calculation Int :=
  match fuel with
  | 0 => wrong "expression too deep"
  | fuel + 1 => do
    let first ← conjunction fuel live
    if ← takeSign "||" then
      let second ← disjunction fuel (live && first == 0)
      return if first != 0 || second != 0 then 1 else 0
    else return first

/-- Evaluates a conjunction. -/
def conjunction (fuel : Nat) (live : Bool) : Calculation Int :=
  match fuel with
  | 0 => wrong "expression too deep"
  | fuel + 1 => do
    let first ← operations fuel live 0 (← operand fuel live)
    if ← takeSign "&&" then
      let second ← conjunction fuel (live && first != 0)
      return if first != 0 && second != 0 then 1 else 0
    else return first

/-- Evaluates the operations that follow an operand and bind at least as tightly as asked for. -/
def operations (fuel : Nat) (live : Bool) (least : Nat) (first : Int) : Calculation Int :=
  match fuel with
  | 0 => wrong "expression too deep"
  | fuel + 1 => do
    let text ← sign?
    match operators.find? fun (sign, _) => text == some sign with
    | some (sign, op, level) =>
      if level < least then return first
      skip sign.length
      let second ← operations fuel live (level + 1) (← operand fuel live)
      let value ← if live then do compute (← get).source op first second else pure second
      operations fuel live least value
    | none => return first

/-- Evaluates an operand. -/
def operand (fuel : Nat) (live : Bool) : Calculation Int :=
  match fuel with
  | 0 => wrong "expression too deep"
  | fuel + 1 => do
    if ← takeSign "-" then return wrap (-(← operand fuel live))
    if ← takeSign "+" then return ← operand fuel live
    if ← takeSign "!" then return if (← operand fuel live) == 0 then 1 else 0
    if ← takeSign "~" then return -(← operand fuel live) - 1
    if ← takeSign "(" then
      let inner ← assignment fuel live
      if !(← takeSign ")") then wrong "expecting ')'"
      return inner
    let s ← nextText
    match readNatural s with
    | some (n, rest) =>
      skip (s.length - rest.length)
      return clamp n
    | none =>
      let name := s.takeWhile isNameChar
      if !isName name then wrong "expecting primary"
      skip name.length
      if live then valueOf name else return 0

end

/-- Evaluates a whole expression. -/
def whole : Calculation Int := do
  let n ← assignment (8 * (← get).rest.length + 16) true
  if (← nextText).isEmpty then return n else wrong "expecting EOF"

end Arith

/-- The value of an arithmetic expression. -/
def evaluate (source : List Char) : Exec Int := Arith.whole.run' ⟨source, source⟩

end ParseAudit.Script
