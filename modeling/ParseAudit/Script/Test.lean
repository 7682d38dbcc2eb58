import ParseAudit.Script.Arithmetic
/-!
# Tests

`test` and `[` answer a question about texts, numbers and files.  The question is read from the
words by precedence; a word counts as an operator only where one makes sense.
-/

namespace ParseAudit.Script.Test

/-- What a word of a question is. -/
inductive Token where
  | operand
  /-- An operator in front of its operand. -/
  | unary
  /-- An operator between two operands. -/
  | binary
  | not
  | and
  | or
  | open
  | close
  /-- There is no word. -/
  | none
  deriving DecidableEq

/-- The operators in front of an operand. -/
def unaryOperators : List String :=
  ["-r", "-w", "-x", "-e", "-f", "-d", "-c", "-b", "-p", "-u", "-g", "-k", "-s", "-t", "-z", "-n",
    "-h", "-O", "-G", "-L", "-S"]

/-- The operators between two operands. -/
def binaryOperators : List String :=
  ["=", "!=", "<", ">", "-eq", "-ne", "-ge", "-gt", "-le", "-lt", "-nt", "-ot", "-ef"]

/-- Whether a word is an operator between two operands. -/
def isBinary (word : List Char) : Bool := binaryOperators.contains (String.ofList word)

/-- What the first of some words is. -/
def token : List (List Char) → Token
  | [] => .none
  | word :: rest =>
    match String.ofList word with
    | "!" => .not
    | "-a" => .and
    | "-o" => .or
    | "(" => if rest.isEmpty then .operand else .open
    | ")" => .close
    | text =>
      if binaryOperators.contains text then .binary
      else if unaryOperators.contains text then
        match rest with
        -- Without an operand, or in front of another operator, the word is an operand itself.
        | [] => .operand
        | [_] => .unary
        | next :: _ => if isBinary next then .operand else .unary
      else .operand

/-- The number that an operand stands for. -/
def number (word : List Char) : Exec Int :=
  match integer? word with
  | some n =>
    if n.natAbs < 9223372036854775808 then return n
    else Exec.fault (ofText "Illegal number: " ++ word)
  | none => Exec.fault (ofText "Illegal number: " ++ word)

/-- The answer of an operator in front of its operand. -/
def unary (sh : Shell) (operator operand : List Char) : Bool :=
  let node := (sh.tree.nodeAt (toOctets operand)).toOption
  match String.ofList operator with
  | "-n" => !operand.isEmpty
  | "-z" => operand.isEmpty
  | "-e" | "-r" | "-w" | "-O" | "-G" => node.isSome || (sh.device? operand).any Option.isSome
  | "-c" => (sh.device? operand).any Option.isSome
  | "-f" => node.any FileNode.isFile
  | "-d" => node.any FileNode.isDirectory
  | "-h" | "-L" =>
    match sh.tree.spotNamed (toOctets operand) with
    | .ok (.found _ node) => node.isLink
    | _ => false
  | "-x" =>
    node.any fun
      | .file _ executable => executable
      | _ => true
  | "-s" =>
    node.any fun
      | .file content _ => !content.isEmpty
      | _ => true
  | _ => false

/-- The answer of an operator between two operands. -/
def binary (operator a b : List Char) : Exec Bool := do
  let compare := fun (holds : Int → Int → Bool) => do
    let m ← number a
    let n ← number b
    return holds m n
  match String.ofList operator with
  | "=" => return a == b
  | "!=" => return a != b
  | "<" => return decide (a < b)
  | ">" => return decide (b < a)
  | "-eq" => compare fun m n => m == n
  | "-ne" => compare fun m n => m != n
  | "-lt" => compare fun m n => m < n
  | "-le" => compare fun m n => m ≤ n
  | "-gt" => compare fun m n => m > n
  | "-ge" => compare fun m n => m ≥ n
  | "-ef" =>
    -- Two paths may lead to the same place.
    let place? := fun (tree : FileTree) (path : List Char) => match tree.spotAt (toOctets path) with
      | .ok (.found place _) => some place
      | _ => none
    let tree := (← get).tree
    return (place? tree a).isSome && place? tree a == place? tree b
  | _ => return false

/-- An answer, and the words from the last one on that it took. -/
abbrev Answer := Bool × List (List Char)

mutual

/-- Answers a disjunction. -/
def either (fuel : Nat) (t : Token) (words : List (List Char)) : Exec Answer :=
  match fuel with
  | 0 => return (false, words)
  | fuel + 1 => do
    let (first, last) ← both fuel t words
    if token last.tail == .or then
      let rest := last.drop 2
      let (second, last) ← either fuel (token rest) rest
      return (first || second, last)
    else return (first, last)

/-- Answers a conjunction. -/
def both (fuel : Nat) (t : Token) (words : List (List Char)) : Exec Answer :=
  match fuel with
  | 0 => return (false, words)
  | fuel + 1 => do
    let (first, last) ← negated fuel t words
    if token last.tail == .and then
      let rest := last.drop 2
      let (second, last) ← both fuel (token rest) rest
      return (first && second, last)
    else return (first, last)

/-- Answers a question that may be negated. -/
def negated (fuel : Nat) (t : Token) (words : List (List Char)) : Exec Answer :=
  match fuel with
  | 0 => return (false, words)
  | fuel + 1 => do
    if t == .not then
      let (answer, last) ← negated fuel (token words.tail) words.tail
      return (!answer, last)
    else primary fuel t words

/-- Answers a question without operators around it. -/
def primary (fuel : Nat) (t : Token) (words : List (List Char)) : Exec Answer :=
  match fuel with
  | 0 => return (false, words)
  | fuel + 1 => do
    let word := words.headD []
    match t with
    | .none => return (false, words)
    | .open =>
      let rest := words.tail
      if token rest == .close then return (false, rest)
      let (answer, last) ← either fuel (token rest) rest
      if token last.tail != .close then Exec.fault (ofText "closing paren expected")
      return (answer, last.tail)
    | .unary =>
      match words.tail with
      | [] => Exec.fault (word ++ ofText ": argument expected")
      | operand :: _ => return (unary (← get) word operand, words.tail)
    | _ =>
      match words with
      | a :: operator :: rest =>
        if token (operator :: rest) == .binary then
          match rest with
          | b :: _ => return (← binary operator a b, rest)
          | [] => Exec.fault (operator ++ ofText ": argument expected")
        else return (!a.isEmpty, words)
      | words => return (!word.isEmpty, words)

end

/-- Answers a whole question; the fuel bounds the negations in front. -/
def whole : Nat → List (List Char) → Exec Bool
  | 0, _ => return false
  | fuel + 1, words => do
    let ask := fun (t : Token) (words : List (List Char)) => do
      let (answer, last) ← either (8 * words.length + 8) t words
      if last.length > 1 then
        let word := last.headD []
        let start := if word.isEmpty then [] else word ++ [':', ' ']
        Exec.fault (start ++ ofText "unexpected operator")
      return answer
    let inner := fun (words : List (List Char)) => do
      if words.head? == some ['('] && words.getLast? == some [')'] then
        let words := words.tail.dropLast
        ask (token words) words
      else if words.head? == some ['!'] then return !(← whole fuel words.tail)
      else ask (token words) words
    match words with
    | [] => return false
    | [_, operator, _] => if isBinary operator then ask .operand words else inner words
    | [_, _, _, _] => inner words
    | words => ask (token words) words

/-- Runs `test`, or `[` with its closing bracket. -/
def run (name : List Char) (args : List (List Char)) : Exec Unit := do
  let words ← if name == ['['] then
      if args.getLast? == some [']'] then pure args.dropLast
      else Exec.fault (ofText "missing ]")
    else pure args
  Exec.answer (← whole (words.length + 1) words)

end ParseAudit.Script.Test
