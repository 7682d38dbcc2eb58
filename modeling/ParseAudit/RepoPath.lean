import ParseAudit.Text.Lines
/-!
# Repository paths

A `RepoPath` is the text by which one file is known throughout an audit.  Two spellings of a path
are brought to one text in three steps: the root is recognised (`Root`), the rest is cut into
segments at `/` and `\`, with empty and `.` segments dropped, and the segments are joined again by
`/`.  A path under the base directory loses the base's root and segments (`Anchored.relativeTo`).
-/

namespace ParseAudit

/-- The text by which a file is known.  Paths are compared by this text alone. -/
structure RepoPath where
  text : String
  deriving DecidableEq, Repr, Inhabited

namespace RepoPath

instance : LT RepoPath := ⟨fun p q => p.text < q.text⟩

instance (p q : RepoPath) : Decidable (p < q) := inferInstanceAs (Decidable (p.text < q.text))

instance : ToString RepoPath := ⟨RepoPath.text⟩

end RepoPath

/-- Where the segments of a path start. -/
inductive Root where
  /-- At some directory that the path does not name. -/
  | relative
  /-- At the root directory. -/
  | slash
  /-- At the root of the drive with this letter. -/
  | drive (letter : Char)
  deriving DecidableEq, Repr

namespace Root

/-- Roots that name one place: the letter of a drive counts in either case. -/
def same : Root → Root → Bool
  | .slash, .slash => true
  | .drive a, .drive b => a.toLower == b.toLower
  | _, _ => false

/-- The text of a root, in front of the segments. -/
def text : Root → List Char
  | .relative => []
  | .slash => ['/']
  | .drive letter => [letter, ':', '/']

end Root

/-- A path as its root and its segments. -/
structure Anchored where
  root : Root
  segments : List (List Char)
  deriving DecidableEq, Repr

namespace Anchored

/-- Both slashes separate segments. -/
def isSeparator (c : Char) : Bool := c == '/' || c == '\\'

/-- A segment that says something: neither empty nor `.`. -/
def isMeaningful (segment : List Char) : Bool := segment != [] && segment != ['.']

/-- The segments of a text without a root. -/
def segmentsOf (s : List Char) : List (List Char) :=
  (s.splitOnP isSeparator).filter isMeaningful

/-- The root that a text starts with, and the text after it. -/
def splitRoot : List Char → Root × List Char
  | [] => (.relative, [])
  | [c] => if isSeparator c then (.slash, []) else (.relative, [c])
  | [c, d] =>
    if isSeparator c then (.slash, [d])
    else if c.isAlpha && d == ':' then (.drive c, [])
    else (.relative, [c, d])
  | c :: d :: e :: rest =>
    if isSeparator c then (.slash, d :: e :: rest)
    else if c.isAlpha && d == ':' && isSeparator e then (.drive c, rest)
    else (.relative, c :: d :: e :: rest)

/-- Reads a path. -/
def ofChars (s : List Char) : Anchored :=
  let (root, rest) := splitRoot s
  ⟨root, segmentsOf rest⟩

/-- Segments joined by `/`, or `.` if there are none. -/
def relativeText (segments : List (List Char)) : List Char :=
  if segments.isEmpty then ['.'] else ['/'].intercalate segments

/-- The one text of a path. -/
def toChars (p : Anchored) : List Char :=
  match p.root with
  | .relative => relativeText p.segments
  | root => root.text ++ ['/'].intercalate p.segments

/-- The segments of a path below `base`, if the path lies in it: both have a root of their own, it
is the same root, and the segments of the base come first. -/
def below? (p base : Anchored) : Option (List (List Char)) :=
  if p.root.same base.root && base.segments.isPrefixOf p.segments then
    some (p.segments.drop base.segments.length)
  else none

/-- The one text of a path as seen from a base directory. -/
def relativeTo (p base : Anchored) : List Char :=
  match p.below? base with
  | some segments => relativeText segments
  | none => p.toChars

end Anchored

namespace RepoPath

/-- The path that a text names, wherever it lies. -/
def new (text : String) : RepoPath :=
  ⟨String.ofList (Anchored.ofChars text.toList).toChars⟩

/-- The path that a text names, relative to the base directory if it lies in it. -/
def normalize (text base : String) : RepoPath :=
  ⟨String.ofList ((Anchored.ofChars text.toList).relativeTo (Anchored.ofChars base.toList))⟩

/-- The base directory itself. -/
def here : RepoPath := new "."

/-- Appends a segment to the text of a path.  An absolute segment stands for itself. -/
def joinText (base segment : String) : String :=
  if Text.hasStart "/" segment then segment
  else if base == "" || Text.hasEnd "/" base then base ++ segment
  else base ++ "/" ++ segment

/-- The path that a segment names, seen from a directory. -/
def join (directory : RepoPath) (segment : String) : RepoPath :=
  new (joinText directory.text segment)

/-- Seen from a base that has no root, a path keeps its own text. -/
theorem normalize_of_relative {text base : String}
    (h : (Anchored.ofChars base.toList).root = .relative) : normalize text base = new text := by
  have hs : ∀ r : Root, r.same .relative = false := by intro r; cases r <;> rfl
  simp [normalize, new, Anchored.relativeTo, Anchored.below?, h, hs]

end RepoPath

end ParseAudit
