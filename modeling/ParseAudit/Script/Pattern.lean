import ParseAudit.Script.Shell
/-!
# Patterns in scripts

`*`, `?` and brackets stand for other characters, unless they are quoted.  Patterns select the
branch of a selection, cut off parts of values, and stand for the paths that they match.
-/

namespace ParseAudit.Script

/-- Characters of a pattern; those that are marked stand for themselves. -/
abbrev Pattern := List (Char × Bool)

namespace Pattern

/-- The characters of a pattern. -/
def chars (p : Pattern) : List Char := p.map Prod.fst

/-- Whether a character belongs to a class with a name. -/
def inNamedClass (name : List Char) (c : Char) : Bool :=
  let isPrinted := 0x21 ≤ c.toNat && c.toNat ≤ 0x7E
  match String.ofList name with
  | "alnum" => c.isAlphanum
  | "alpha" => c.isAlpha
  | "blank" => c == ' ' || c == '\t'
  | "cntrl" => c.toNat < 0x20 || c.toNat == 0x7F
  | "digit" => c.isDigit
  | "graph" => isPrinted
  | "lower" => c.isLower
  | "print" => isPrinted || c == ' '
  | "punct" => isPrinted && !c.isAlphanum
  | "space" => c == ' ' || (0x09 ≤ c.toNat && c.toNat ≤ 0x0D)
  | "upper" => c.isUpper
  | "xdigit" => (hexValue? c).isSome
  | _ => false

/-- Reads the name of a class behind `[:`, and gives what follows it. -/
def className? : Pattern → Option (List Char × Pattern)
  | (':', _) :: (']', _) :: rest => some ([], rest)
  | (c, _) :: rest => (className? rest).map fun (name, rest) => (c :: name, rest)
  | [] => none

/-- Reads the members of a bracket up to its end.  Gives whether a character is among them and what
follows; `first` says that none was read yet.  The fuel bounds the number of members. -/
def members? (c : Char) : Nat → Bool → Pattern → Option (Bool × Pattern)
  | 0, _, _ => none
  | fuel + 1, first, ps =>
    let go := fun (found : Bool) (rest : Pattern) =>
      (members? c fuel false rest).map fun (others, rest) => (found || others, rest)
    match ps with
    | [] => none
    | (']', false) :: rest => if first then single (']', false) rest go else some (false, rest)
    | ('[', false) :: (':', b) :: rest =>
      match className? rest with
      | some (name, rest) => go (inNamedClass name c) rest
      | none => single ('[', false) ((':', b) :: rest) go
    | p :: rest => single p rest go
where
  /-- Reads a member that is a character or a range. -/
  single (p : Char × Bool) (rest : Pattern) (go : Bool → Pattern → Option (Bool × Pattern)) :
      Option (Bool × Pattern) :=
    match rest with
    | ('-', false) :: (high, quoted) :: others =>
      if high == ']' && !quoted then go (c == p.1) rest
      else go (p.1 ≤ c && c ≤ high) others
    | _ => go (c == p.1) rest

/-- Reads a bracket after its opening: whether it takes a character, and what follows.  There is no
bracket if nothing closes it. -/
def bracket? (c : Char) (ps : Pattern) : Option (Bool × Pattern) :=
  match ps with
  | ('!', false) :: rest => (members? c ps.length true rest).map fun (found, r) => (!found, r)
  | ps => members? c (ps.length + 1) true ps

/-- Whether a pattern matches a whole text; the fuel bounds the length of both. -/
def matchesWithin : Nat → Pattern → List Char → Bool
  | 0, _, _ => false
  | fuel + 1, ps, text =>
    match ps, text with
    | [], text => text.isEmpty
    | ('*', false) :: ps, [] => matchesWithin fuel ps []
    | ('*', false) :: ps, c :: cs =>
      matchesWithin fuel ps (c :: cs) || matchesWithin fuel (('*', false) :: ps) cs
    | ('?', false) :: ps, _ :: cs => matchesWithin fuel ps cs
    | ('[', false) :: ps, c :: cs =>
      match bracket? c ps with
      | some (takes, rest) => takes && matchesWithin fuel rest cs
      | none => c == '[' && matchesWithin fuel ps cs
    | (p, _) :: ps, c :: cs => p == c && matchesWithin fuel ps cs
    | _ :: _, [] => false

/-- Whether a pattern matches a whole text. -/
def isMatch (p : Pattern) (text : List Char) : Bool :=
  matchesWithin (p.length + text.length + 1) p text

/-! ## Cutting values -/

/-- Cuts off an end that a pattern matches; the first of some lengths that fits counts. -/
def cutFirst (p : Pattern) (atEnd : Bool) (value : List Char) : List Nat → List Char
  | [] => value
  | n :: ns =>
    let (part, rest) := if atEnd then (value.drop n, value.take n) else (value.take n, value.drop n)
    if p.isMatch part then rest else cutFirst p atEnd value ns

/-- Cuts off the longest or shortest start or end of a value that a pattern matches. -/
def cut (p : Pattern) (atEnd longest : Bool) (value : List Char) : List Char :=
  let lengths := List.range (value.length + 1)
  cutFirst p atEnd value (if atEnd == longest then lengths else lengths.reverse)

/-! ## Paths -/

/-- Whether a pattern stands for more than itself. -/
def isOpen (p : Pattern) : Bool :=
  p.any fun (c, quoted) => !quoted && (c == '*' || c == '?' || c == '[')

/-- Whether a segment of a pattern matches a name.  A point at the start must stand there. -/
def matchesName (segment : Pattern) (name : List Char) : Bool :=
  segment.isMatch name && (name.head? != some '.' || segment.chars.head? == some '.')

/-- The names in a directory. -/
def namesIn (t : FileTree) (directory : List Char) : List (List Char) :=
  match t.nodeAt (toOctets (if directory.isEmpty then ['.'] else directory)) with
  | .ok (.directory children) =>
    ['.'] :: ['.', '.'] :: children.map fun (name, _) => ofOctets name
  | _ => []

/-- The paths with the given start that match the segments of a pattern. -/
def pathsFrom (t : FileTree) (start : List Char) : List Pattern → List (List Char)
  | [] => if (t.nodeAt (toOctets start)).toOption.isSome then [start] else []
  | segment :: rest =>
    let names :=
      if isOpen segment then (namesIn t start).filter (matchesName segment) else [segment.chars]
    names.flatMap fun name =>
      pathsFrom t (start ++ name ++ if rest.isEmpty then [] else ['/']) rest

/-- The paths that a pattern stands for: those that it matches in order, or itself if there are
none. -/
def paths (p : Pattern) (t : FileTree) : List (List Char) :=
  let found := if isOpen p then pathsFrom t [] (p.splitOnP fun (c, _) => c == '/') else []
  if found.isEmpty then [p.chars] else found.mergeSort fun a b => !decide (b < a)

end Pattern

end ParseAudit.Script
