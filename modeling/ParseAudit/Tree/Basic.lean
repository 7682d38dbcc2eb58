import ParseAudit.Failure
import ParseAudit.Tree.Node
/-!
# File trees and paths in them

A `FileTree` is everything that an audit can read and write, together with the directory that
relative paths start from.  A path is followed step by step; a link on the way is replaced by its
target, at most forty times.  What a path leads to is a `Spot`: a node, or a name that is free in a
directory.
-/

namespace ParseAudit

/-- The files of a machine, seen from a directory. -/
structure FileTree where
  root : FileNode
  /-- The directory that relative paths start from. -/
  directory : List FileName
  deriving Inhabited

/-- One step of a path. -/
inductive PathStep where
  /-- `.` -/
  | here
  /-- `..` -/
  | up
  | down (name : FileName)
  /-- The slash at the end of a path, where only a directory will do. -/
  | slash
  deriving DecidableEq

/-- What a path is followed for. -/
inductive Purpose where
  /-- To name something: a link at the end stands for itself. -/
  | naming
  /-- To look at what is there, links followed. -/
  | looking
  /-- To write a file there, links followed. -/
  | writing
  deriving DecidableEq

/-- What a path leads to. -/
inductive Spot where
  | found (place : List FileName) (node : FileNode)
  /-- There is no such name in this directory. -/
  | free (place : List FileName) (name : FileName)

namespace PathStep

/-- The octet `/`. -/
def slashOctet : UInt8 := 0x2F

/-- Cuts octets at the slashes. -/
def segments : Octets → List Octets
  | [] => [[]]
  | b :: rest =>
    if b = slashOctet then [] :: segments rest
    else
      match segments rest with
      | [] => [[b]]
      | s :: ss => (b :: s) :: ss

/-- The step of a segment; an empty one is none. -/
def ofSegment? (segment : Octets) : Option PathStep :=
  if segment = [] then none
  else if segment = Octets.ofText "." then some .here
  else if segment = Octets.ofText ".." then some .up
  else some (.down segment)

/-- The steps of a path. -/
def ofPath (path : Octets) : List PathStep :=
  let steps := (segments path).filterMap ofSegment?
  if path.getLast? = some slashOctet ∧ steps ≠ [] then steps ++ [.slash] else steps

/-- Whether a path starts at the root. -/
def isAbsolute (path : Octets) : Bool := path.head? == some slashOctet

/-- The steps of a path without a slash at the end. -/
def withoutSlash (steps : List PathStep) : List PathStep :=
  if steps.getLast? = some .slash then steps.dropLast else steps

end PathStep

namespace FileTree

/-! ## Following a path -/

/-- The number of links that may be followed. -/
def maxLinks : Nat := 40

/-- The number of octets that a name may have. -/
def maxNameLength : Nat := 255

/-- The number of octets that a path must not reach. -/
def pathLimit : Nat := 4096

/-- The node at a place. -/
def node? (t : FileTree) (place : List FileName) : Option FileNode := t.root.node? place

/-- Whether a directory is at a place. -/
def isDirectoryAt (t : FileTree) (place : List FileName) : Bool :=
  (t.node? place).any FileNode.isDirectory

/-- Follows the steps of a path from a place. -/
def follow (t : FileTree) (purpose : Purpose) (links : Nat) (place : List FileName)
    (steps : List PathStep) : Except FileError Spot :=
  match steps with
  | [] =>
    match t.node? place with
    | some node => .ok (.found place node)
    | none => .error .notFound
  | .here :: rest | .slash :: rest =>
    if t.isDirectoryAt place then t.follow purpose links place rest else .error .notADirectory
  | .up :: rest =>
    if t.isDirectoryAt place then t.follow purpose links place.dropLast rest
    else .error .notADirectory
  | .down name :: rest =>
    match t.node? place with
    | some (.directory children) =>
      -- A slash behind the last name asks for a directory, which cannot be written.
      if purpose = .writing ∧ rest = [.slash] then .error .isADirectory
      else if name.length > maxNameLength then .error .nameTooLong
      else
        match FileNode.Children.get? children name with
        -- Only the last name of a path can be one that is still free.
        | none => if rest = [] ∨ rest = [.slash] then .ok (.free place name) else .error .notFound
        | some (.link target) =>
          if rest = [] ∧ purpose = .naming then .ok (.found (place ++ [name]) (.link target))
          else
            match links with
            | 0 => .error .tooManyLinks
            | links + 1 =>
              -- The steps of the target come first, from the directory that the link stands in.
              t.follow purpose links (if PathStep.isAbsolute target then [] else place)
                (PathStep.ofPath target ++ rest)
        | some _ => t.follow purpose links (place ++ [name]) rest
    | some _ => .error .notADirectory
    | none => .error .notFound
termination_by (links, steps.length)

/-- Follows steps from the start that a path has. -/
def followPath (t : FileTree) (purpose : Purpose) (path : Octets) (steps : List PathStep) :
    Except FileError Spot :=
  if path = [] then .error .notFound
  else if path.contains 0 then .error .nulInName
  else if path.length ≥ pathLimit then .error .nameTooLong
  else t.follow purpose maxLinks (if PathStep.isAbsolute path then [] else t.directory) steps

/-- What a path of octets leads to, links followed. -/
def spotAt (t : FileTree) (path : Octets) : Except FileError Spot :=
  t.followPath .looking path (PathStep.ofPath path)

/-- What a path leads to, links followed. -/
def spot (t : FileTree) (path : String) : Except FileError Spot := t.spotAt (Octets.ofText path)

/-- What a path names: a link at its end is not followed, and a slash at its end says nothing. -/
def spotNamed (t : FileTree) (path : Octets) : Except FileError Spot :=
  t.followPath .naming path (PathStep.withoutSlash (PathStep.ofPath path))

/-! ## Looking at a path -/

/-- The node that a path of octets leads to. -/
def nodeAt (t : FileTree) (path : Octets) : Except FileError FileNode :=
  match t.spotAt path with
  | .ok (.found _ node) => .ok node
  | .ok (.free ..) => .error .notFound
  | .error e => .error e

/-- The node that a path leads to. -/
def nodeOf (t : FileTree) (path : String) : Except FileError FileNode :=
  t.nodeAt (Octets.ofText path)

/-- Whether a path leads to anything. -/
def pathExists (t : FileTree) (path : String) : Bool := (t.nodeOf path).toOption.isSome

/-- Whether a path leads to a file. -/
def isFile (t : FileTree) (path : String) : Bool := (t.nodeOf path).toOption.any FileNode.isFile

/-- Whether a path leads to a directory. -/
def isDirectory (t : FileTree) (path : String) : Bool :=
  (t.nodeOf path).toOption.any FileNode.isDirectory

/-- The content of the file that a path of octets leads to. -/
def readAt (t : FileTree) (path : Octets) : Except FileError Octets := do
  match ← t.nodeAt path with
  | .file content _ => return content
  | _ => .error .isADirectory

/-- The content of a file. -/
def read (t : FileTree) (path : String) : Except FileError Octets := t.readAt (Octets.ofText path)

/-- The content as text of the file that a path of octets leads to. -/
def readTextAt (t : FileTree) (path : Octets) : Except FileError String := do
  match Octets.toText? (← t.readAt path) with
  | some text => return text
  | none => .error .notText

/-- The content of a file as text. -/
def readText (t : FileTree) (path : String) : Except FileError String :=
  t.readTextAt (Octets.ofText path)

/-- The text of a place: names joined by `/`, if all of them are text. -/
def placeText? (place : List FileName) : Option String :=
  if place.isEmpty then some "/"
  else (place.mapM Octets.toText?).map fun names => "/" ++ "/".intercalate names

/-- The path of the same thing from the root and without links. -/
def canonical (t : FileTree) (path : String) : Option String :=
  match t.spot path with
  | .ok (.found place _) => placeText? place
  | _ => none

/-! ## Changing a tree -/

/-- Changes the children of the directory at a place. -/
def update (t : FileTree) (place : List FileName)
    (change : FileNode.Children → FileNode.Children) : FileTree :=
  { t with root := t.root.update change place }

/-- Puts a node under a name into the directory at a place. -/
def put (t : FileTree) (place : List FileName) (name : FileName) (node : FileNode) : FileTree :=
  t.update place (·.set name node)

/-- The spot that is opened for writing. -/
def spotToWrite (t : FileTree) (path : Octets) : Except FileError Spot :=
  t.followPath .writing path (PathStep.ofPath path)

/-- Sets the content of a file from what it was; a file that is not there is made. -/
def modifyOctets (t : FileTree) (path : Octets) (change : Octets → Octets) :
    Except FileError FileTree := do
  match ← t.spotToWrite path with
  | .free place name => return t.put place name (.file (change []) false)
  | .found place (.file content executable) =>
    match place.getLast? with
    | some name => return t.put place.dropLast name (.file (change content) executable)
    | none => .error .isADirectory
  | .found _ _ => .error .isADirectory

/-- Writes a file. -/
def write (t : FileTree) (path : String) (content : Octets) : Except FileError FileTree :=
  t.modifyOctets (Octets.ofText path) fun _ => content

/-- Makes a directory, whose parent must be there. -/
def makeDirectory (t : FileTree) (path : Octets) : Except FileError FileTree := do
  match ← t.spotNamed path with
  | .free place name => return t.put place name .emptyDirectory
  | .found .. => .error .alreadyExists

end FileTree

end ParseAudit
