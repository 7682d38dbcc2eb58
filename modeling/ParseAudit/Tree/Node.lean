import ParseAudit.Text.Octets
/-!
# Nodes of a file tree

A node is a file, a symbolic link or a directory; a directory lists its children under their
names, which are octets and need not be text.  A node deep in a tree is reached by the names on the
way to it (`node?`), and changed by `update`.
-/

namespace ParseAudit

/-- The name of a child in its directory. -/
abbrev FileName := Octets

/-- A file, a link or a directory. -/
inductive FileNode where
  | file (content : Octets) (executable : Bool)
  | link (target : Octets)
  | directory (children : List (FileName × FileNode))
  deriving Inhabited

namespace FileNode

/-- The children of a directory. -/
abbrev Children := List (FileName × FileNode)

namespace Children

/-- The child with the given name. -/
def get? (children : Children) (name : FileName) : Option FileNode := children.lookup name

/-- Replaces the child with the given name, or adds it at the end. -/
def set (children : Children) (name : FileName) (node : FileNode) : Children :=
  match children with
  | [] => [(name, node)]
  | (n, child) :: rest =>
    if n = name then (n, node) :: rest else (n, child) :: set rest name node

/-- Drops the child with the given name. -/
def erase (children : Children) (name : FileName) : Children :=
  children.filter fun (n, _) => n != name

end Children

/-- An empty directory. -/
def emptyDirectory : FileNode := .directory []

/-- Whether the node is a directory. -/
def isDirectory : FileNode → Bool
  | .directory _ => true
  | _ => false

/-- Whether the node is a file. -/
def isFile : FileNode → Bool
  | .file .. => true
  | _ => false

/-- Whether the node is a link. -/
def isLink : FileNode → Bool
  | .link _ => true
  | _ => false

/-- The child of a directory with the given name. -/
def child? (node : FileNode) (name : FileName) : Option FileNode :=
  match node with
  | .directory children => Children.get? children name
  | _ => none

/-- The node that the names on the way lead to. -/
def node? (node : FileNode) : List FileName → Option FileNode
  | [] => some node
  | name :: rest => (node.child? name).bind fun child => child.node? rest

/-- Changes the children of the directory that the names on the way lead to. -/
def update (change : Children → Children) : List FileName → FileNode → FileNode
  | [], .directory children => .directory (change children)
  | name :: rest, .directory children =>
    match Children.get? children name with
    | some child => .directory (Children.set children name (child.update change rest))
    | none => .directory children
  | _, node => node

/-! ## Everything beneath a node -/

/-- The name of the directories that no search enters. -/
def skippedName : FileName := Octets.ofText ".git"

mutual

/-- The files and links at and beneath a node, with the names on the way to them. -/
def leaves : FileNode → List (List FileName × FileNode)
  | .directory children => childLeaves children
  | node => [([], node)]

/-- The files and links at and beneath some children. -/
def childLeaves : List (FileName × FileNode) → List (List FileName × FileNode)
  | [] => []
  | (name, child) :: rest =>
    if name = skippedName then childLeaves rest
    else child.leaves.map (fun (names, node) => (name :: names, node)) ++ childLeaves rest

end

end FileNode

end ParseAudit
