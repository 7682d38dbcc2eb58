import ParseAudit.Script.Tool.Basic
/-!
# Tools for files

Tools that show, make, move and remove the files of a tree, and those that take paths apart.
-/

namespace ParseAudit.Script.Tool

/-- Says that something cannot be done to a path, and why. -/
def cannot (name verb : String) (path : List Char) (e : FileError) : Exec Unit :=
  complain name (ofText (verb ++ " ") ++ inQuotes path ++ reason e) 1

/-! ## Showing files -/

/-- Numbers lines; blank ones may stay without a number. -/
def numbered (skipBlank : Bool) : Nat → List (List Char) → List Char
  | _, [] => []
  | n, line :: lines =>
    if skipBlank && line.isEmpty then '\n' :: numbered skipBlank n lines
    else padded 6 n ++ '\t' :: line ++ '\n' :: numbered skipBlank (n + 1) lines

/-- Shows the contents of files. -/
def cat : Tool := make "cat" "nbsuE" "" 1 fun a => do
  let decorate := fun (text : List Char) =>
    let text := if a.has 'E' then text.flatMap fun c => if c == '\n' then ['$', '\n'] else [c]
      else text
    if a.has 'n' || a.has 'b' then numbered (a.has 'b') 1 (linesOf text) else text
  forInputs "cat" 1 plainly a.inputs fun _ content => Exec.print (decorate content)

/-- Copies the standard input to files, and prints it. -/
def tee : Tool := make "tee" "ai" "" 1 fun a => do
  let text ← Exec.readAll
  for path in a.operands do
    match (← get).openFile path (if a.has 'a' then .append else .overwrite) with
    | .ok (channel, sh) => set (sh.write channel text)
    | .error e => complain "tee" (plainly path e) 1
  Exec.print text

/-- The names in a directory, in order. -/
def namesIn (children : FileNode.Children) : List (List Char) :=
  (children.map fun (name, _) => ofOctets name).mergeSort fun a b => !decide (b < a)

/-- Lists names and the contents of directories. -/
def ls : Tool := make "ls" "aA1dlrRpF" "" 2 fun a => do
  let sh ← get
  let paths := if a.operands.isEmpty then [['.']] else a.operands
  let paths := paths.mergeSort fun a b => !decide (b < a)
  let mut directories := []
  let mut named := false
  for path in paths do
    match sh.tree.nodeAt (toOctets path) with
    | .error e => do
      complain "ls" (ofText "cannot access " ++ inQuotes path ++ reason e) 2
      named := true
    | .ok (.directory children) =>
      if a.has 'd' then Exec.printLine path
      else directories := directories ++ [(path, namesIn children)]
    | .ok _ => do
      Exec.printLine path
      named := true
  let titled := paths.length > 1
  for (path, names) in directories do
    if titled then
      if named then Exec.print ['\n']
      Exec.printLine (path ++ [':'])
    named := true
    let shown := names.filter fun name =>
      a.has 'a' || a.has 'A' || name.head? != some '.'
    Exec.print (joinLines ((if a.has 'a' then [['.'], ['.', '.']] else []) ++ shown))

/-! ## Making and removing -/

/-- Changes the tree, and says so if that cannot be done. -/
def change (name verb : String) (path : List Char)
    (f : FileTree → Except FileError FileTree) : Exec Unit := do
  match f (← get).tree with
  | .ok tree => modify ({ · with tree := tree })
  | .error e => cannot name verb path e

/-- Makes directories. -/
def mkdir : Tool := make "mkdir" "pv" "m" 1 fun a => do
  if a.operands.isEmpty then missingOperand "mkdir"
  for path in a.operands do
    if a.has 'p' then
      let (tree, outcome) := (← get).tree.makeDirectories (toText path)
      modify ({ · with tree := tree })
      if let .error e := outcome then cannot "mkdir" "cannot create directory" path e
    else change "mkdir" "cannot create directory" path (·.makeDirectory (toOctets path))

/-- The tree without the empty directory at a path. -/
def withoutDirectory (path : List Char) (t : FileTree) : Except FileError FileTree := do
  match ← t.nodeAt (toOctets path) with
  | .directory [] => t.remove (toOctets path)
  | .directory _ => .error .directoryNotEmpty
  | _ => .error .notADirectory

/-- Removes empty directories. -/
def rmdir : Tool := make "rmdir" "p" "" 1 fun a => do
  if a.operands.isEmpty then missingOperand "rmdir"
  for path in a.operands do
    let paths := if a.has 'p' then
        (PathText.ancestors (toText path)).filterMap fun parent =>
          if ["", ".", "/"].contains parent then none else some (ofText parent)
      else [path]
    for path in if paths.isEmpty then [path] else paths do
      change "rmdir" "failed to remove" path (withoutDirectory path)

/-- Removes files, and directories on demand. -/
def rm : Tool := make "rm" "rRfvid" "" 1 fun a => do
  if a.operands.isEmpty && !a.has 'f' then missingOperand "rm"
  for path in a.operands do
    let octets := toOctets path
    match (← get).tree.spotNamed octets with
    | .ok (.found _ node) =>
      if node.isDirectory && !(a.has 'r' || a.has 'R') then
        cannot "rm" "cannot remove" path .isADirectory
      else change "rm" "cannot remove" path (·.remove octets)
    | .ok (.free ..) => if !a.has 'f' then cannot "rm" "cannot remove" path .notFound
    | .error e =>
      if !(a.has 'f' && (e == .notFound || e == .notADirectory)) then
        cannot "rm" "cannot remove" path e

/-- Makes files that are not there. -/
def touch : Tool := make "touch" "acm" "drt" 1 fun a => do
  if a.operands.isEmpty then
    misuse "touch" (ofText "missing file operand") 1
  for path in a.operands do
    let octets := toOctets path
    let isThere := ((← get).tree.nodeAt octets).toOption.isSome
    if !isThere && !a.has 'c' then change "touch" "cannot touch" path (·.modifyOctets octets id)

/-- Makes links; one that is no symbolic link has the content of its target. -/
def ln : Tool := make "ln" "sfn" "" 1 fun a => do
  match a.operands with
  | [target, path] =>
    let octets := toOctets path
    if a.has 'f' then
      if let .ok tree := (← get).tree.remove octets then modify ({ · with tree := tree })
    if a.has 's' then
      change "ln" "failed to create symbolic link" path (·.makeLink (toText path) (toText target))
    else
      change "ln" "failed to create hard link" path fun t => do
        match ← t.nodeAt (toOctets target), ← t.spotNamed octets with
        | .directory _, _ => .error .notADirectory
        | node, .free place name => return t.put place name node
        | _, .found .. => .error .alreadyExists
  | _ => missingOperand "ln"

/-- Shows where links lead. -/
def readlink : Tool := make "readlink" "fenm" "" 1 fun a => do
  if a.operands.isEmpty then missingOperand "readlink"
  for path in a.operands do
    let t := (← get).tree
    let shown := if a.has 'f' || a.has 'e' || a.has 'm' then (t.canonical (toText path)).map ofText
      else match t.spotNamed (toOctets path) with
        | .ok (.found _ (.link target)) => some (ofOctets target)
        | _ => none
    match shown with
    | some text => if a.has 'n' then Exec.print text else Exec.printLine text
    | none => Exec.setStatus 1

/-- What a mode says about running a file: that it can be run, that it cannot, or nothing.  There is
no mode in other texts. -/
def executableIn? (mode : List Char) : Option (Option Bool) :=
  if mode.all fun c => (Format.octalValue? c).isSome then
    some (some (mode.any fun c => ((digitValue? c).getD 0) % 2 == 1))
  else if mode.any fun c => ['+', '-', '='].contains c then
    some (if mode.contains 'x' then some !(mode.contains '-') else none)
  else none

/-- Makes files executable, or takes that back. -/
def chmod : Tool := make "chmod" "Rv" "" 1 fun a => do
  match a.operands with
  | [] => missingOperand "chmod"
  | [mode] => misuse "chmod" (ofText "missing operand after " ++ inQuotes mode) 1
  | mode :: paths =>
    match executableIn? mode with
    | none => misuse "chmod" (ofText "invalid mode: " ++ inQuotes mode) 1
    | some wish =>
      for path in paths do
        let sh ← get
        match sh.tree.spotAt (toOctets path) with
        | .ok (.found place (.file content former)) =>
          let node := FileNode.file content (wish.getD former)
          set { sh with tree := sh.tree.put place.dropLast (place.getLastD []) node }
        | .ok (.found ..) => pure ()
        | .ok (.free ..) => cannot "chmod" "cannot access" path .notFound
        | .error e => cannot "chmod" "cannot access" path e

/-! ## Paths -/

/-- The last name of a path. -/
def lastName (path : List Char) : List Char :=
  let kept := (path.reverse.dropWhile (· == '/')).reverse
  if kept.isEmpty then path.take 1 else (kept.reverse.takeWhile (· != '/')).reverse

/-- A name without an end; a name that is nothing but the end keeps it. -/
def withoutEnd (stop name : List Char) : List Char :=
  if stop != name && stop.isSuffixOf name then name.take (name.length - stop.length) else name

/-- Shows the last names of paths. -/
def basename : Tool := make "basename" "az" "s" 1 fun a => do
  match a.operands, a.has 'a' || a.has 's' with
  | [], _ => missingOperand "basename"
  | paths, true =>
    let stop := (a.value? 's').getD []
    Exec.print (joinLines (paths.map fun path => withoutEnd stop (lastName path)))
  | [path], false => Exec.printLine (lastName path)
  | [path, stop], false => Exec.printLine (withoutEnd stop (lastName path))
  | _ :: _ :: extra :: _, false =>
    misuse "basename" (ofText "extra operand " ++ inQuotes extra) 1

/-- The path in front of the last name. -/
def parentOf (path : List Char) : List Char :=
  let trimmed := fun (s : List Char) => (s.reverse.dropWhile (· == '/')).reverse
  let kept := trimmed path
  if kept.isEmpty then if path.isEmpty then ['.'] else ['/']
  else
    let front := kept.take (kept.length - (lastName kept).length)
    if front.isEmpty then ['.']
    else
      let parent := trimmed front
      if parent.isEmpty then ['/'] else parent

/-- Shows the paths in front of the last names. -/
def dirname : Tool := make "dirname" "z" "" 1 fun a => do
  if a.operands.isEmpty then missingOperand "dirname"
  Exec.print (joinLines (a.operands.map parentOf))

/-! ## Copying and moving -/

/-- Puts a node where a path leads: into a directory, in the place of a file, or as something
new. -/
def putNode (path name : List Char) (node : FileNode) (t : FileTree) :
    Except FileError FileTree := do
  match ← t.spotAt (toOctets path) with
  | .found place (.directory _) => return t.put place (toOctets name) node
  | .found place _ => return t.put place.dropLast (place.getLastD []) node
  | .free place name => return t.put place name node

/-- Splits the operands of a tool into sources and a target; several sources need a directory. -/
def sourcesAndTarget (name : String) (operands : List (List Char)) :
    Exec (Option (List (List Char) × List Char)) := do
  match operands.reverse with
  | [] =>
    misuse name (ofText "missing file operand") 1
    return none
  | [source] =>
    misuse name (ofText "missing destination file operand after " ++ inQuotes source) 1
    return none
  | [target, source] => return some ([source], target)
  | target :: sources =>
    match (← get).tree.nodeAt (toOctets target) with
    | .ok (.directory _) => return some (sources.reverse, target)
    | .ok _ => do
      cannot name "target" target .notADirectory
      return none
    | .error e => do
      complain name (ofText "target " ++ inQuotes target ++ reason e) 1
      return none

/-- Whether two paths lead to the same place. -/
def isSame (t : FileTree) (a b : List Char) : Bool :=
  match t.spotAt (toOctets a), t.spotAt (toOctets b) with
  | .ok (.found p _), .ok (.found q _) => p == q
  | _, _ => false

/-- Copies files, and directories on demand. -/
def cp : Tool := make "cp" "rRafpvn" "" 1 fun a => do
  if let some (sources, target) ← sourcesAndTarget "cp" a.operands then
    for source in sources do
      let t := (← get).tree
      match t.nodeAt (toOctets source) with
      | .error e => cannot "cp" "cannot stat" source e
      | .ok node =>
        if node.isDirectory && !(a.has 'r' || a.has 'R' || a.has 'a') then
          complain "cp" (ofText "-r not specified; omitting directory " ++ inQuotes source) 1
        else if isSame t source target then
          complain "cp" (inQuotes source ++ ofText " and " ++ inQuotes target
            ++ ofText " are the same file") 1
        else change "cp" "cannot create regular file" target (putNode target (lastName source) node)

/-- Moves files and directories. -/
def mv : Tool := make "mv" "fvn" "" 1 fun a => do
  if let some (sources, target) ← sourcesAndTarget "mv" a.operands then
    for source in sources do
      let t := (← get).tree
      match t.spotNamed (toOctets source) with
      | .error e => cannot "mv" "cannot stat" source e
      | .ok (.free ..) => cannot "mv" "cannot stat" source .notFound
      | .ok (.found _ node) =>
        if isSame t source target then
          complain "mv" (inQuotes source ++ ofText " and " ++ inQuotes target
            ++ ofText " are the same file") 1
        else change "mv" "cannot move" source fun t => do
          putNode target (lastName source) node (← t.remove (toOctets source))

end ParseAudit.Script.Tool
