import ParseAudit.Tree.Basic
/-!
# Making directories, links and their removal

A directory is made together with the parents that are missing.  The parent of a path is found in
its text alone: empty segments and `.` at the end are passed over, then the last segment goes.
-/

namespace ParseAudit

namespace PathText

/-- The root or the leading `.` of a path, and the text after it. -/
def splitHead : List Char → List Char × List Char
  | '/' :: rest => (['/'], rest)
  | ['.'] => (['.'], [])
  | '.' :: '/' :: rest => (['.'], '/' :: rest)
  | text => ([], text)

/-- Cuts a text at the slashes. -/
def segments : List Char → List (List Char)
  | [] => [[]]
  | '/' :: rest => [] :: segments rest
  | c :: rest =>
    match segments rest with
    | [] => [[c]]
    | s :: ss => (c :: s) :: ss

/-- Whether a segment leads nowhere else. -/
def isIdle (segment : List Char) : Bool := segment == [] || segment == ['.']

/-- The segments up to the last one that leads somewhere. -/
def trimIdle (segments : List (List Char)) : List (List Char) :=
  (segments.reverse.dropWhile isIdle).reverse

/-- The parent of a path; the root has none, and neither has the empty path. -/
def parent? (path : String) : Option String :=
  let (head, body) := splitHead path.toList
  match trimIdle (segments body) with
  | [] => if head == ['.'] then some "" else none
  | kept => some (String.ofList (head ++ ['/'].intercalate (trimIdle kept.dropLast)))

/-- The last segment of a path, if it is a name. -/
def lastName? (path : String) : Option String :=
  match (trimIdle (segments (splitHead path.toList).2)).getLast? with
  | some ['.', '.'] => none
  | some name => some (String.ofList name)
  | none => none

/-- A path and its parents, innermost first; the fuel bounds their number. -/
def ancestorsWithin : Nat → String → List String
  | 0, _ => []
  | fuel + 1, path =>
    path :: match parent? path with
      | some parent => ancestorsWithin fuel parent
      | none => []

/-- A path and its parents, innermost first. -/
def ancestors (path : String) : List String := ancestorsWithin (path.length + 1) path

end PathText

namespace FileTree

/-- Makes the first directory of a list, whose parents follow, with the parents that are missing.
Parents stay even if the last step fails. -/
def makeAll (t : FileTree) : List String → FileTree × Except FileError Unit
  | [] => (t, .ok ())
  | path :: parents =>
    let settle (t : FileTree) (e : FileError) : FileTree × Except FileError Unit :=
      (t, if t.isDirectory path then .ok () else .error e)
    if path.isEmpty then (t, .ok ())
    else
      match t.makeDirectory (Octets.ofText path) with
      | .ok t => (t, .ok ())
      -- A parent is missing: it is made first, and then the directory is tried again.
      | .error .notFound =>
        match t.makeAll parents with
        | (t, .error e) => (t, .error e)
        | (t, .ok ()) =>
          match t.makeDirectory (Octets.ofText path) with
          | .ok t => (t, .ok ())
          | .error e => settle t e
      | .error e => settle t e

/-- Makes a directory with the parents that are missing. -/
def makeDirectories (t : FileTree) (path : String) : FileTree × Except FileError Unit :=
  t.makeAll (PathText.ancestors path)

/-- Makes a link. -/
def makeLink (t : FileTree) (path : String) (target : String) : Except FileError FileTree := do
  if target.isEmpty then .error .notFound
  else
    match ← t.spotNamed (Octets.ofText path) with
    | .free place name => return t.put place name (.link (Octets.ofText target))
    | .found .. => .error .alreadyExists

/-- Removes a file, a link, or a directory with everything in it. -/
def remove (t : FileTree) (path : Octets) : Except FileError FileTree := do
  match ← t.spotNamed path with
  | .found place node =>
    -- A slash at the end asks for a directory.
    if (PathStep.ofPath path).getLast? = some .slash ∧ !node.isDirectory then .error .notADirectory
    else match place.getLast? with
    | some name => return t.update place.dropLast (·.erase name)
    | none => .error .invalidArgument
  | .free .. => .error .notFound

/-- Makes a file executable. -/
def makeExecutable (t : FileTree) (path : String) : Except FileError FileTree := do
  match ← t.spot path with
  | .found place (.file content _) =>
    match place.getLast? with
    | some name => return t.put place.dropLast name (.file content true)
    | none => .error .notFound
  | .found .. => return t
  | .free .. => .error .notFound

end FileTree

end ParseAudit
