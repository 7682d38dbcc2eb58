import ParseAudit.Script.Expansion
/-!
# Redirection

Redirections lead the streams of a command elsewhere, one after another, until one fails.  A few
paths stand for devices and not for files of the tree.
-/

namespace ParseAudit.Script

namespace Shell

/-- The content of a file or of a device. -/
def contentOf (sh : Shell) (path : List Char) : Except FileError (List Char) :=
  match sh.device? path with
  | some (some (.inlet id)) => .ok ((sh.inlets.lookup id).getD [])
  | some (some _) => .ok []
  | some none => .error .notFound
  | none => (sh.tree.readAt (toOctets path)).map ofOctets

/-- Opens a file to write into it. -/
def openFile (sh : Shell) (path : List Char) (mode : WriteMode) :
    Except FileError (Channel × Shell) :=
  match sh.device? path with
  | some (some channel) => .ok (channel, sh)
  | some none => .error .notFound
  | none => do
    let octets := toOctets path
    match ← sh.tree.spotToWrite octets with
    | .free place name =>
      let tree ← sh.tree.modifyOctets octets id
      return (.file (place ++ [name]), { sh with tree })
    | .found place node =>
      if mode = .replace && sh.isOn 'C' && node.isFile then throw .alreadyExists
      let tree ← sh.tree.modifyOctets octets fun content =>
        if mode = .append then content else []
      return (.file place, { sh with tree })

end Shell

namespace Redirection

/-- Says that a file cannot be opened; `missing` is said if it is not there. -/
def refuse (verb missing : String) (path : List Char) (e : FileError) : Exec Bool := do
  let reason := match e with
    | .notFound | .notADirectory => missing
    | e => e.description
  Exec.complain (ofText ("cannot " ++ verb ++ " ") ++ path ++ ofText (": " ++ reason)) 2
  return false

/-- Lets a stream take what is written. -/
def toFile (stream : Nat) (mode : WriteMode) (path : List Char) : Exec Bool := do
  match (← get).openFile path mode with
  | .ok (channel, sh) =>
    set (sh.setStream stream (some channel))
    return true
  | .error e => refuse "create" "Directory nonexistent" path e

/-- Lets a stream give a text. -/
def fromText (stream : Nat) (text : List Char) : Exec Bool := do
  let (channel, sh) := (← get).addInlet text
  set (sh.setStream stream (some channel))
  return true

/-- Lets a stream give the content of a file. -/
def fromFile (stream : Nat) (path : List Char) : Exec Bool := do
  let sh ← get
  match sh.device? path with
  | some (some channel) =>
    set (sh.setStream stream (some channel))
    return true
  | _ =>
    match sh.contentOf path with
    | .ok content => fromText stream content
    -- A directory can be opened, but there is nothing in it to be read.
    | .error .isADirectory => fromText stream []
    | .error e => refuse "open" "No such file" path e

/-- Lets a stream go where another one goes; without another one it is closed. -/
def copy (stream : Nat) (source : Option Nat) : Exec Bool := do
  let sh ← get
  match source with
  | none =>
    set (sh.setStream stream none)
    return true
  | some source =>
    match sh.streams.lookup source with
    | some channel =>
      set (sh.setStream stream (some channel))
      return true
    | none =>
      Exec.complain (naturalChars source ++ ofText ": Bad file descriptor") 2
      return false

/-- The stream that a text names; `-` stands for none. -/
def source (text : List Char) : Exec (Option Nat) :=
  match text with
  | ['-'] => return none
  | [c] =>
    match digitValue? c with
    | some source => return some source
    | none => Exec.fault (ofText "Syntax error: Bad fd number")
  | _ => Exec.fault (ofText "Syntax error: Bad fd number")

/-- Lets a stream give a text of the script; nothing is given if the text cannot be expanded. -/
def fromHere (e : Expansion) (stream : Nat) (text : Word) : Exec Bool := do
  let found ← tryCatch (do return some (← e.text text)) fun stop =>
    if stop = .fault then return none else throw stop
  match found with
  | some text => fromText stream text
  | none => return false

/-- Finds out what a redirection asks for.  What it does says whether it could be done. -/
def prepare (e : Expansion) : Redirect → Exec (Exec Bool)
  | .copy stream target => do
    let source ← source (← e.text target)
    return copy stream source
  | .toFile stream mode target => do
    let path ← e.text target
    return toFile stream mode path
  | .fromFile stream source => do
    let path ← e.text source
    return fromFile stream path
  | .both stream file => do
    let path ← e.text file
    return do if (← toFile stream .append path) then fromFile stream path else return false
  | .here stream text => return fromHere e stream text

/-- Does one thing after another, up to the first one that cannot be done. -/
def doAll : List (Exec Bool) → Exec Bool
  | [] => return true
  | action :: actions => do
    if ← action then doAll actions else return false

/-- Does what redirections ask for, up to the first one that fails. -/
def applyAll (e : Expansion) (redirects : List Redirect) : Exec Bool := do
  doAll (← redirects.mapM (prepare e))

end Redirection

end ParseAudit.Script
