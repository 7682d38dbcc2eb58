import ParseAudit.Selection.ListFile
import ParseAudit.Selection.PatternSet
/-!
# Selecting files

A `FileSource` is resolved under a base directory.  Its patterns, with those of its list file, are
matched against all files of the tree beneath the base; directories that are links are not entered,
and neither is a directory named `.git`.  Finished paths from a list file are merged without a look
at the tree.
-/

namespace ParseAudit.Selection

/-- A file that the search comes upon: its path, and whether a file is there once links are
followed. -/
structure Visit where
  path : Octets
  isFile : Bool

/-- The path of something beneath a base directory. -/
def pathBeneath (base : Octets) (names : List FileName) : Octets :=
  names.foldl (fun path name =>
    if path = [] ∨ path.getLast? = some PathStep.slashOctet then path ++ name
    else path ++ PathStep.slashOctet :: name) base

/-- Whether a node is a file once links are followed from the place that it is named from. -/
def leadsToFile (t : FileTree) (place names : List FileName) (node : FileNode) : Bool :=
  match node with
  | .file .. => true
  | .directory _ => false
  | .link _ =>
    match names.getLast? with
    | none => false
    | some name =>
      match t.follow .looking FileTree.maxLinks (place ++ names.dropLast) [.down name] with
      | .ok (.found _ node) => node.isFile
      | _ => false

/-- Whether a path itself names a link. -/
def namesLink (t : FileTree) (path : String) : Bool :=
  let octets := Octets.ofText path
  match t.followPath .naming octets (PathStep.ofPath octets) with
  | .ok (.found _ node) => node.isLink
  | _ => false

/-- The files and links at and beneath a base directory. -/
def leavesOf (t : FileTree) (base : String) (node : FileNode) :
    List (List FileName × FileNode) :=
  -- The name of the base counts too, but a link to a directory is entered under any name.
  let skipped := (PathText.lastName? base).any fun name =>
    Octets.ofText name == FileNode.skippedName
  if skipped && !(node.isDirectory && namesLink t base) then [] else node.leaves

/-- Everything that the search beneath a base directory comes upon. -/
def visits (t : FileTree) (base : String) : Traced (List Visit) :=
  let unreadable (e : FileError) : Traced (List Visit) := do
    Traced.log .debug .selection
      ("skipping unreadable entry: IO error for operation on " ++ base ++ ": " ++ e.message)
    return []
  match t.spot base with
  | .ok (.found place node) =>
    return (leavesOf t base node).map fun (names, leaf) =>
      ⟨pathBeneath (Octets.ofText base) names, leadsToFile t place names leaf⟩
  | .ok (.free ..) => unreadable .notFound
  | .error e => unreadable e

/-- The path of a file as it is known, if its path is text. -/
def pathOf (visit : Visit) (base : String) : Traced (Option RepoPath) :=
  match Octets.toText? visit.path with
  | some path => return some (.normalize path base)
  | none => do
    Traced.log .debug .selection
      ("skipping non-UTF-8 path: " ++ Octets.toTextLenient visit.path)
    return none

/-- The paths of some files as they are known. -/
def pathsOf (base : String) : List Visit → Traced (List RepoPath)
  | [] => return []
  | visit :: rest => do
    let first ← pathOf visit base
    let others ← pathsOf base rest
    return first.toList ++ others

/-- The files beneath a base directory that a set of patterns selects. -/
def expand (t : FileTree) (base : String) (patterns : PatternSet) : Traced (List RepoPath) := do
  let found ← visits t base
  let paths ← pathsOf base (found.filter Visit.isFile)
  return paths.filter patterns.isMatch

/-- The entries of the list file of a source, if there is one. -/
def listEntries (t : FileTree) (base : String) (source : FileSource) : Traced (List String) :=
  match source.listFile with
  | none => return []
  | some place => do
    let found ← ListFile.read t (RepoPath.joinText base place)
    return found.getD []

/-- The files that a source describes, seen from a base directory. -/
def resolve (t : FileTree) (base : String) (source : FileSource) : Traced FileSet := do
  let entries ← listEntries t base source
  let patterns := source.patterns ++ (if source.listKind = .patterns then entries else [])
  let listed := if source.listKind = .paths then
    entries.map fun entry => RepoPath.normalize (Text.trim entry) base else []
  let set ← Traced.ofExcept (PatternSet.compile patterns base)
  let matched ← if set.hasIncludes then do
      let matched ← expand t base set
      Traced.log .debug .selection (Text.natural patterns.length ++ " pattern(s) matched "
        ++ Text.natural matched.length ++ " file(s)")
      pure matched
    else pure []
  let files := FileSet.ofList (listed ++ matched)
  Traced.log .info .selection
    ("resolved " ++ Text.natural files.size ++ " file(s) under " ++ base)
  return files

end ParseAudit.Selection
