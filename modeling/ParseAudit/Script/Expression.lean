import ParseAudit.Script.Pattern
/-!
# Expressions that search lines

Tools look for places in a line by regular expressions.  An expression is read in the basic or in
the extended way, which differ in what a backslash frees, and is matched from left to right; a
repetition takes as much as it can.
-/

namespace ParseAudit.Script

/-- A regular expression. -/
inductive Expression where
  | empty
  | char (c : Char)
  | any
  /-- One of the characters in a bracket, which is read like that of a pattern. -/
  | oneOf (negated : Bool) (members : Pattern)
  /-- The start of the line. -/
  | start
  /-- The end of the line. -/
  | stop
  /-- The edge of a word. -/
  | edge
  /-- A part that can be referred to by its number. -/
  | group (number : Nat) (e : Expression)
  /-- What a group took before. -/
  | again (number : Nat)
  /-- A number of repetitions within bounds. -/
  | repeated (least : Nat) (most : Option Nat) (e : Expression)
  | seq (first second : Expression)
  | alt (first second : Expression)

namespace Expression

/-! ## Matching -/

/-- How far a match has come. -/
structure Progress where
  /-- What was passed, the latest character first. -/
  passed : List Char
  rest : List Char
  /-- What groups took, the latest first. -/
  groups : List (Nat × List Char)

/-- Whether a character belongs to a word. -/
def isWordChar (c : Char) : Bool := c.isAlphanum || c == '_'

/-- Matches an expression at a place, and goes on from there with whatever matches the rest.  The
fuel bounds the depth of a match. -/
def run (fuel : Nat) (ignoreCase : Bool) (e : Expression) (p : Progress)
    (next : Progress → Option Progress) : Option Progress :=
  match fuel with
  | 0 => none
  | fuel + 1 =>
    let same := fun (a b : Char) => a == b || (ignoreCase && a.toLower == b.toLower)
    let one := fun (takes : Char → Bool) =>
      match p.rest with
      | c :: cs => if takes c then next { p with passed := c :: p.passed, rest := cs } else none
      | [] => none
    match e with
    | .empty => next p
    | .char c => one (same c)
    | .any => one fun _ => true
    | .oneOf negated members =>
      let holds := fun (c : Char) =>
        (Pattern.members? c (members.length + 1) true members).any (·.1)
      one fun c => (holds c || (ignoreCase && (holds c.toLower || holds c.toUpper))) != negated
    | .start => if p.passed.isEmpty then next p else none
    | .stop => if p.rest.isEmpty then next p else none
    | .edge =>
      if p.passed.head?.any isWordChar != p.rest.head?.any isWordChar then next p else none
    | .group n e =>
      run fuel ignoreCase e p fun q =>
        let taken := (q.passed.take (q.passed.length - p.passed.length)).reverse
        next { q with groups := (n, taken) :: q.groups }
    | .again n =>
      let text := (p.groups.lookup n).getD []
      if text.isPrefixOf p.rest then
        next { p with passed := text.reverse ++ p.passed, rest := p.rest.drop text.length }
      else none
    | .repeated least most e =>
      let more := if most == some 0 then none else
        run fuel ignoreCase e p fun q =>
          -- A round that takes nothing would go on for ever.
          if q.rest.length == p.rest.length && least == 0 then none
          else run fuel ignoreCase (.repeated (least - 1) (most.map (· - 1)) e) q next
      match more with
      | some q => some q
      | none => if least == 0 then next p else none
    | .seq a b => run fuel ignoreCase a p fun q => run fuel ignoreCase b q next
    | .alt a b =>
      match run fuel ignoreCase a p next with
      | some q => some q
      | none => run fuel ignoreCase b p next

/-- The depth that a match may take. -/
def depth : Nat := 10000

/-- Matches an expression at a place. -/
def matchAt? (ignoreCase : Bool) (e : Expression) (passed rest : List Char) : Option Progress :=
  run depth ignoreCase e ⟨passed, rest, []⟩ some

/-- A match in a line. -/
structure Found where
  before : List Char
  taken : List Char
  after : List Char
  groups : List (Nat × List Char)

/-- The first match behind a part of the line that was passed. -/
def find? (ignoreCase : Bool) (e : Expression) (passed : List Char) : List Char → Option Found
  | [] => (matchAt? ignoreCase e passed []).map fun p => ⟨passed.reverse, [], [], p.groups⟩
  | c :: cs =>
    match matchAt? ignoreCase e passed (c :: cs) with
    | some p =>
      let taken := (p.passed.take (p.passed.length - passed.length)).reverse
      some ⟨passed.reverse, taken, p.rest, p.groups⟩
    | none => find? ignoreCase e (c :: passed) cs

/-! ## Reading -/

/-- What an operator does in an expression. -/
inductive Operator where
  | star
  | plus
  | optional
  | bar
  | open
  | close
  | bounds
  deriving DecidableEq

/-- The operator that stands at the start of a text, and the text after it. -/
def operator? (extended : Bool) (s : List Char) : Option (Operator × List Char) :=
  let sign := fun (c : Char) => match c with
    | '+' => some Operator.plus
    | '?' => some .optional
    | '|' => some .bar
    | '(' => some .open
    | ')' => some .close
    | '\x7b' => some .bounds
    | _ => none
  match s with
  | '*' :: rest => some (.star, rest)
  | '\\' :: c :: rest => if extended then none else (sign c).map (·, rest)
  | c :: rest => if extended then (sign c).map (·, rest) else none
  | [] => none

/-- Reads an expression; it fails where the expression makes no sense. -/
abbrev ExpressionReading := StateT (List Char × Nat) Option

/-- Reads the members of a bracket after its opening, the closing one included. -/
def bracket (s : List Char) : Option (Expression × List Char) :=
  let (negated, body) := match s with
    | '^' :: rest => (true, rest)
    | s => (false, s)
  let marked : Pattern := body.map fun c => (c, false)
  -- The end is where it is for a pattern, whatever the character is.
  (Pattern.members? ' ' (marked.length + 1) true marked).map fun (_, rest) =>
    (.oneOf negated (marked.take (marked.length - rest.length)), rest.chars)

/-- The bounds of a repetition up to the closing brace. -/
def bounds? (extended : Bool) (s : List Char) : Option ((Nat × Option Nat) × List Char) := do
  let low := s.takeWhile Char.isDigit
  let rest := s.drop low.length
  let least := (Chars.natural? low).getD 0
  let (most, rest) := match rest with
    | ',' :: rest =>
      let high := rest.takeWhile Char.isDigit
      (Chars.natural? high, rest.drop high.length)
    | rest => (some least, rest)
  match rest with
  | '\x7d' :: rest => if extended then some ((least, most), rest) else none
  | '\\' :: '\x7d' :: rest => if extended then none else some ((least, most), rest)
  | _ => none

mutual

/-- Reads alternatives. -/
def alternatives (extended : Bool) (fuel : Nat) : ExpressionReading Expression :=
  match fuel with
  | 0 => failure
  | fuel + 1 => do
    let first ← sequence extended fuel true
    let (s, n) ← get
    match operator? extended s with
    | some (.bar, rest) =>
      set (rest, n)
      return .alt first (← alternatives extended fuel)
    | _ => return first

/-- Reads parts one after another; `first` says that none was read yet. -/
def sequence (extended : Bool) (fuel : Nat) (first : Bool) : ExpressionReading Expression :=
  match fuel with
  | 0 => failure
  | fuel + 1 => do
    let (s, n) ← get
    match operator? extended s, s with
    | some (.bar, _), _ | some (.close, _), _ | _, [] => return .empty
    | some (.open, rest), _ =>
      set (rest, n + 1)
      let inner ← alternatives extended fuel
      let (s, m) ← get
      match operator? extended s with
      | some (.close, rest) =>
        set (rest, m)
        followed extended fuel (.group (n + 1) inner)
      | _ => failure
    | some (.star, rest), _ =>
      -- A star with nothing before it stands for itself.
      if first then do
        set (rest, n)
        followed extended fuel (.char '*')
      else failure
    | some _, c :: rest =>
      if first && extended then do
        set (rest, n)
        followed extended fuel (.char c)
      else failure
    | none, '^' :: rest =>
      set (rest, n)
      if first || extended then return .seq .start (← sequence extended fuel true)
      else followed extended fuel (.char '^')
    | none, '$' :: rest =>
      set (rest, n)
      let ends := extended || rest.isEmpty || match operator? extended rest with
        | some (.close, _) | some (.bar, _) => true
        | _ => false
      if ends then return .seq .stop (← sequence extended fuel false)
      else followed extended fuel (.char '$')
    | none, '.' :: rest =>
      set (rest, n)
      followed extended fuel .any
    | none, '[' :: rest => do
      let (e, rest) ← (bracket rest : Option _)
      set (rest, n)
      followed extended fuel e
    | none, '\\' :: c :: rest =>
      set (rest, n)
      followed extended fuel (escaped c)
    | none, c :: rest =>
      set (rest, n)
      followed extended fuel (.char c)
where
  /-- What a character behind a backslash stands for. -/
  escaped (c : Char) : Expression :=
    let word : Pattern := ("[:alnum:]_]".toList).map (·, false)
    let space : Pattern := ("[:space:]]".toList).map (·, false)
    match c with
    | 'n' => .char '\n'
    | 't' => .char '\t'
    | 'w' => .oneOf false word
    | 'W' => .oneOf true word
    | 's' => .oneOf false space
    | 'S' => .oneOf true space
    | 'b' | '<' | '>' => .edge
    | c => if c.isDigit then .again (c.toNat - '0'.toNat) else .char c

/-- Reads the repetitions of a part, and what follows. -/
def followed (extended : Bool) (fuel : Nat) (e : Expression) : ExpressionReading Expression :=
  match fuel with
  | 0 => failure
  | fuel + 1 => do
    let (s, n) ← get
    match operator? extended s with
    | some (.star, rest) =>
      set (rest, n)
      followed extended fuel (.repeated 0 none e)
    | some (.plus, rest) =>
      set (rest, n)
      followed extended fuel (.repeated 1 none e)
    | some (.optional, rest) =>
      set (rest, n)
      followed extended fuel (.repeated 0 (some 1) e)
    | some (.bounds, rest) => do
      let ((least, most), rest) ← (bounds? extended rest : Option _)
      set (rest, n)
      followed extended fuel (.repeated least most e)
    | _ => return .seq e (← sequence extended fuel false)

end

/-- Reads a whole expression. -/
def parse? (extended : Bool) (s : List Char) : Option Expression := do
  let (e, rest, _) ← (alternatives extended (4 * s.length + 8)).run (s, 0)
  if rest.isEmpty then some e else none

/-- The expression for a text that stands for itself. -/
def ofText (s : List Char) : Expression := s.foldr (fun c e => .seq (.char c) e) .empty

end Expression

end ParseAudit.Script
