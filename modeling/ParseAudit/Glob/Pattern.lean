import ParseAudit.Text.Lines
/-!
# Glob patterns

A pattern is read from left to right into tokens:

* `?` and `*` stand for one character and for any number of characters within a segment;
* `**` beside a slash stands for any number of segments, and elsewhere for two `*`;
* `[…]` stands for one character of a class, `[!…]` and `[^…]` for one outside it;
* `{a,b}` stands for either branch, and branches may hold groups again;
* `\` takes the next character as it is.

The only faults are a class or a group that is not closed, a group that is not opened, a range
whose ends are reversed, and a `\` at the end.
-/

namespace ParseAudit.Glob

/-- A piece of a pattern. -/
inductive Token where
  | literal (c : Char)
  /-- `?` -/
  | any
  /-- `*` -/
  | zeroOrMore
  /-- `**` in front: any number of whole segments. -/
  | recursiveStart
  /-- `/**` at the end: anything beneath. -/
  | recursiveEnd
  /-- `/**/` in the middle: any number of whole segments between two others. -/
  | recursiveMiddle
  /-- The ranges of a class, in the order in which they are written. -/
  | charClass (negated : Bool) (ranges : List (Char × Char))
  | alternates (branches : List (List Token))
  deriving Repr

/-- What is wrong with a pattern. -/
inductive Fault where
  | unclosedClass
  | invalidRange (low high : Char)
  | unopenedAlternates
  | unclosedAlternates
  | danglingEscape
  deriving DecidableEq, Repr

namespace Fault

/-- The wording of a fault. -/
def message : Fault → String
  | unclosedClass => "unclosed character class; missing ']'"
  | invalidRange low high =>
    "invalid range; '" ++ low.toString ++ "' > '" ++ high.toString ++ "'"
  | unopenedAlternates =>
    "unopened alternate group; missing '\x7b' (maybe escape '\x7d' with '[\x7d]'?)"
  | unclosedAlternates =>
    "unclosed alternate group; missing '\x7d' (maybe escape '\x7b' with '[\x7b]'?)"
  | danglingEscape => "dangling '\\'"

end Fault

/-- A pattern that is at fault. -/
structure Error where
  pattern : String
  fault : Fault
  deriving DecidableEq, Repr

namespace Error

/-- The wording of a pattern error. -/
def message (e : Error) : String :=
  "error parsing glob '" ++ e.pattern ++ "': " ++ e.fault.message

end Error

/-! ## Reading a class -/

/-- Reads a class after its opening.  The ranges read so far stand latest first; `first` says that
none was read, `inRange` that a `-` waits for the end of the latest range. -/
def readClass (first inRange : Bool) (ranges : List (Char × Char)) :
    List Char → Except Fault (List (Char × Char) × List Char)
  | [] => .error .unclosedClass
  | c :: cs =>
    -- A `]` closes the class unless it stands first.
    if c == ']' && !first then
      .ok ((if inRange then ('-', '-') :: ranges else ranges).reverse, cs)
    -- A `-` between two members joins them to a range.
    else if c == '-' && !first && !inRange then readClass false true ranges cs
    else if inRange then
      match ranges with
      | (low, _) :: others =>
        if c < low then .error (.invalidRange low c)
        else readClass false false ((low, c) :: others) cs
      | [] => readClass false false [(c, c)] cs
    else readClass false false ((c, c) :: ranges) cs

theorem length_of_readClass {first inRange : Bool} {ranges out : List (Char × Char)}
    {s rest : List Char} (h : readClass first inRange ranges s = .ok (out, rest)) :
    rest.length < s.length := by
  induction s generalizing first inRange ranges with
  | nil => simp [readClass] at h
  | cons c cs ih =>
    unfold readClass at h
    have step : ∀ {f i rs}, readClass f i rs cs = .ok (out, rest) →
        rest.length < (c :: cs).length := fun h => Nat.lt_succ_of_lt (ih h)
    split at h
    · simp only [Except.ok.injEq, Prod.mk.injEq] at h
      obtain ⟨_, rfl⟩ := h
      exact Nat.lt_succ_self _
    · split at h
      · exact step h
      · split at h
        · split at h
          · split at h
            · simp at h
            · exact step h
          · exact step h
        · exact step h

/-- Reads the negation of a class, if one stands there. -/
def splitNegation : List Char → Bool × List Char
  | '!' :: body => (true, body)
  | '^' :: body => (true, body)
  | body => (false, body)

theorem length_splitNegation (cs : List Char) : (splitNegation cs).2.length ≤ cs.length := by
  unfold splitNegation
  split <;> simp

/-! ## Reading a pattern -/

/-- A group that is open: the branch that it stands in, and the branches before. -/
structure Frame where
  /-- The tokens of the branch so far, latest first. -/
  branch : List Token
  /-- The finished branches of the group, latest first. -/
  finished : List (List Token)

/-- How far the reading of a pattern has come. -/
structure State where
  current : Frame
  /-- The frames around the current one, innermost first. -/
  outer : List Frame

namespace State

/-- Nothing read. -/
def start : State := ⟨⟨[], []⟩, []⟩

/-- Whether a group is open. -/
def inGroup (s : State) : Bool := !s.outer.isEmpty

/-- Adds a token to the current branch. -/
def push (s : State) (token : Token) : State :=
  { s with current := { s.current with branch := token :: s.current.branch } }

/-- Opens a group. -/
def openGroup (s : State) : State := ⟨⟨[], []⟩, s.current :: s.outer⟩

/-- Ends the current branch and starts the next one. -/
def nextBranch (s : State) : State :=
  { s with current := ⟨[], s.current.branch.reverse :: s.current.finished⟩ }

/-- Closes the current group. -/
def closeGroup (s : State) : Except Fault State :=
  match s.outer with
  | [] => .error .unopenedAlternates
  | frame :: outer =>
    let branches := (s.current.branch.reverse :: s.current.finished).reverse
    .ok (State.push ⟨frame, outer⟩ (.alternates branches))

/-- Puts the token of a `**` after a slash in the place of the token for that slash.  A `**` that
is there already takes the new one in. -/
def replaceSlash (s : State) (token : Token) : State :=
  match s.current.branch with
  | .recursiveStart :: _ => s
  | .recursiveEnd :: _ => s
  | _ :: branch => { s with current := { s.current with branch := token :: branch } }
  | [] => s.push token

/-- Reads what follows a `**`; `before` is the character in front of it.  Gives the state, the last
character read, and the text after it. -/
def readDoubleStar (s : State) (before : Option Char) (cs : List Char) :
    State × Char × List Char :=
  let twoStars := ((s.push .zeroOrMore).push .zeroOrMore, '*', cs)
  -- At the start of a branch there is no slash to replace.
  if s.current.branch.isEmpty then
    match cs with
    | [] => (s.push .recursiveStart, '*', [])
    | '/' :: rest => (s.push .recursiveStart, '/', rest)
    | _ => twoStars
  -- Beside other text within a segment the two stars are just two stars.
  else if before != some '/' && (!s.inGroup || (before != some ',' && before != some '{')) then
    twoStars
  else
    match cs with
    | [] => (s.replaceSlash .recursiveEnd, '*', [])
    | '/' :: rest => (s.replaceSlash .recursiveMiddle, '/', rest)
    | c :: _ =>
      if (c == ',' || c == '}') && s.inGroup then (s.replaceSlash .recursiveEnd, '*', cs)
      else twoStars

theorem length_readDoubleStar (s : State) (before : Option Char) (cs : List Char) :
    (s.readDoubleStar before cs).2.2.length ≤ cs.length := by
  unfold readDoubleStar
  grind

/-- Reads the rest of a pattern; `before` is the character in front of it. -/
def read (s : State) (before : Option Char) (text : List Char) : Except Fault State :=
  match text with
  | [] => .ok s
  | '?' :: cs => (s.push .any).read (some '?') cs
  | '*' :: '*' :: cs =>
    match _h : s.readDoubleStar before cs with
    | (next, last, rest) => next.read (some last) rest
  | '*' :: cs => (s.push .zeroOrMore).read (some '*') cs
  | '[' :: cs =>
    match _h : readClass true false [] (splitNegation cs).2 with
    | .error fault => .error fault
    | .ok (ranges, rest) =>
      (s.push (.charClass (splitNegation cs).1 ranges)).read (some ']') rest
  | '{' :: cs => s.openGroup.read (some '{') cs
  | '}' :: cs =>
    match s.closeGroup with
    | .error fault => .error fault
    | .ok s => s.read (some '}') cs
  | ',' :: cs => (if s.inGroup then s.nextBranch else s.push (.literal ',')).read (some ',') cs
  | ['\\'] => .error .danglingEscape
  | '\\' :: c :: cs => (s.push (.literal c)).read (some c) cs
  | c :: cs => (s.push (.literal c)).read (some c) cs
termination_by text.length
decreasing_by
  all_goals simp only [List.length_cons]
  all_goals try omega
  · have := length_readDoubleStar s before cs
    simp only [_h] at this
    omega
  · have := length_of_readClass _h
    have := length_splitNegation cs
    omega

end State

/-- The tokens of a pattern. -/
def tokens (text : List Char) : Except Fault (List Token) := do
  let s ← State.start.read none text
  if s.inGroup then .error .unclosedAlternates else .ok s.current.branch.reverse

/-- Reads a pattern. -/
def parse (pattern : String) : Except Error (List Token) :=
  match tokens pattern.toList with
  | .ok ts => .ok ts
  | .error fault => .error ⟨pattern, fault⟩

end ParseAudit.Glob
