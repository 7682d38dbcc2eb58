import ParseAudit.Command.ValuePattern.Mode
/-!
# Classes of value patterns

A class stands between brackets: characters, ranges, escapes and named classes, and classes within
it.  `&&`, `--` and `~~` part what it has before them from what it has after them.  A class is read
for its end and for how deep it nests.
-/

namespace ParseAudit.ValuePattern

/-- How deep a whole nests whose parts nest as given.  Only several parts make a level. -/
def together : List Nat → Nat
  | [] => 0
  | [depth] => depth
  | depths => 1 + depths.foldl max 0

/-- A class that is open. -/
structure OpenSet where
  /-- How deep the members nest that were read since the latest operator. -/
  members : List Nat
  /-- How deep nests what stands before that operator. -/
  before : Option Nat
  deriving Repr

namespace OpenSet

/-- Nothing read. -/
def start : OpenSet := ⟨[], none⟩

/-- Takes in a member. -/
def add (o : OpenSet) (depth : Nat) : OpenSet := { o with members := depth :: o.members }

/-- How deep nests what was read so far. -/
def depth (o : OpenSet) : Nat :=
  match o.before with
  | none => together o.members
  | some before => 1 + max before (together o.members)

/-- Goes on after an operator. -/
def next (o : OpenSet) : OpenSet := ⟨[], some o.depth⟩

end OpenSet

/-- A place within a class. -/
inductive SetPlace where
  /-- Right after the opening. -/
  | start
  /-- After dashes that follow the opening. -/
  | dashes
  | inside
  deriving DecidableEq, Repr

/-- The classes that have a name. -/
def setNames : List String := [
  "alnum", "alpha", "ascii", "blank", "cntrl", "digit", "graph", "lower", "print", "punct", "space",
  "upper", "word", "xdigit"]

/-- Reads a named class after its bracket: a name between colons, perhaps with `^` in front.  Tells
whether the class holds what the name excludes. -/
def namedSet? (s : List Char) : Option (Bool × List Char) :=
  match s with
  | ':' :: cs =>
    let (negated, cs) := match cs with
      | '^' :: cs => (true, cs)
      | cs => (false, cs)
    let name := cs.takeWhile (· != ':')
    match cs.drop name.length with
    | ':' :: ']' :: rest =>
      if setNames.contains (String.ofList name) then some (negated, rest) else none
    | _ => none
  | _ => none

/-- Reads one end of a range, or a member: a character, or `none` for a class that an escape
names. -/
def member? (m : Mode) (s : List Char) : Option (Option Char × List Char) := do
  let (found, rest) ← match s with
    | [] => none
    | '\\' :: cs => escape? m cs
    | c :: cs => some (.literal c, cs)
  match found with
  | .literal c => if m.octets && 0x80 ≤ c.toNat then none else some (some c, rest)
  | .set => some (none, rest)
  | .edge => none

/-- Reads a member or a range of a class. -/
def memberOrRange? (m : Mode) (s : List Char) : Option (List Char) := do
  let (low, rest) ← member? m s
  match m.skip rest with
  | '-' :: more =>
    -- A dash in front of the end, or of another dash, is no range.
    if m.peek? more == some ']' || m.peek? more == some '-' then return '-' :: more
    else
      let (high, rest) ← member? m (m.skip more)
      match low, high with
      | some low, some high => if low ≤ high then return rest else none
      | _, _ => none
  | rest => return rest

/-- Reads a `^` that turns a class around, if one stands there.  A class of octets cannot be turned
around, since it would leave ASCII. -/
def negation? (m : Mode) (s : List Char) : Option (List Char) :=
  match m.skip s with
  | '^' :: rest => if m.octets then none else some rest
  | rest => some rest

/-- Reads a class up to its end, from a place within `outer` classes.  Gives how deep it nests. -/
def setEnd? (m : Mode) : Nat → SetPlace → OpenSet → List OpenSet → List Char →
    Option (Nat × List Char)
  | 0, _, _, _, _ => none
  | fuel + 1, place, here, outer, s =>
    match place, m.skip s with
    | _, [] => none
    -- A bracket that would close an empty class, and dashes at the start, stand for themselves.
    | .start, ']' :: rest => setEnd? m fuel .inside (here.add 0) outer rest
    | .start, '-' :: rest => setEnd? m fuel .dashes (here.add 0) outer rest
    | .dashes, '-' :: rest => setEnd? m fuel .dashes (here.add 0) outer rest
    | _, ']' :: rest =>
      match outer with
      | [] => some (1 + here.depth, rest)
      | around :: outer => setEnd? m fuel .inside (around.add (1 + here.depth)) outer rest
    | _, '[' :: rest =>
      match namedSet? rest with
      | some (negated, rest) =>
        if negated && m.octets then none else setEnd? m fuel .inside (here.add 0) outer rest
      | none => do
        let rest ← negation? m rest
        setEnd? m fuel .start .start (here :: outer) rest
    | _, '&' :: '&' :: rest => setEnd? m fuel .inside here.next outer rest
    | _, '-' :: '-' :: rest => setEnd? m fuel .inside here.next outer rest
    | _, '~' :: '~' :: rest => setEnd? m fuel .inside here.next outer rest
    | _, s => do
      let rest ← memberOrRange? m s
      setEnd? m fuel .inside (here.add 0) outer rest

/-- Reads a class after its bracket.  Gives how deep it nests. -/
def set? (m : Mode) (s : List Char) : Option (Nat × List Char) := do
  let rest ← negation? m s
  setEnd? m (s.length + 1) .start .start [] rest

end ParseAudit.ValuePattern
