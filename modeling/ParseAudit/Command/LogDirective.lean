import ParseAudit.Command.ValuePattern
import ParseAudit.Text.Lines
/-!
# Directives of a log filter

A directive sets the least grave level that is shown of some messages.  In full it reads
`component[span{field=value}]=level`: it is about the messages of components whose name starts with
a text, written within a span of work, and with a field of a name and a value.  All parts may be
left out.
-/

namespace ParseAudit

/-- A field that a message must have, perhaps with a value. -/
structure LogField where
  name : String
  value : Option String
  deriving DecidableEq, Repr

/-- A directive of a log filter. -/
structure LogDirective where
  /-- The start of the names of the components that are meant. -/
  component : Option String
  /-- The name of the span of work that is meant. -/
  span : Option String
  field : Option LogField
  /-- The rank of the least grave level that is shown; nothing is shown at zero. -/
  rank : Nat
  deriving DecidableEq, Repr

namespace LogDirective

/-- The directive that is about all messages. -/
def all (rank : Nat) : LogDirective := ⟨none, none, none, rank⟩

/-- The rank of the level with the given name or number. -/
def rank? (text : List Char) : Option Nat :=
  match Chars.naturalBelow? 6 text with
  | some n => some n
  | none =>
    let name := String.ofList (text.map Char.toLower)
    ["off", "error", "warn", "info", "debug", "trace"].findIdx? (· == name)

/-- The rank that shows everything. -/
def fullRank : Nat := 5

/-- The text from a place on, counted in octets. -/
def dropOctets : Nat → List Char → List Char
  | 0, s => s
  | _, [] => []
  | n, c :: s => dropOctets (n - c.utf8Size) s

/-- How many octets a text takes. -/
def octetLength (s : List Char) : Nat := (s.map Char.utf8Size).foldl (· + ·) 0

/-- The text between two places, counted in octets. -/
def cut (start stop : Nat) (s : List Char) : List Char :=
  let s := dropOctets start s
  s.take (s.length - (dropOctets (stop - start) s).length)

/-- Sets the level of a directive to the text after its equals sign; without any, all is shown. -/
def withLevel? (d : LogDirective) (level : List Char) : Option LogDirective :=
  if level.isEmpty then some { d with rank := fullRank }
  else (rank? level).map fun rank => { d with rank := rank }

/-- Reads a field from between its braces. -/
def field? (text : List Char) : Option LogField :=
  let name := String.ofList (text.takeWhile (· != '='))
  match text.dropWhile (· != '=') with
  | [] => if text.isEmpty then none else some ⟨name, none⟩
  | _ :: rest =>
    let value := rest.takeWhile (· != '=')
    if ValuePattern.isWellFormed value then some ⟨name, some (String.ofList value)⟩ else none

/-- Reads what follows the closing bracket of a directive. -/
def afterBrackets? (d : LogDirective) (whole : List Char) (place : Nat) (s : List Char) :
    Option LogDirective :=
  match s with
  | [] => some d
  | '=' :: _ => d.withLevel? (dropOctets (place + 1) whole)
  | _ => none

/-- Reads what stands in the brackets of a directive, and what follows them. -/
def brackets? (d : LogDirective) (whole : List Char) (place : Nat) (s : List Char) :
    Option LogDirective :=
  let isEnd := fun c => c == ']' || c == '\x7b'
  let stop := place + octetLength (s.takeWhile (!isEnd ·))
  let span := String.ofList (cut place stop whole)
  match s.dropWhile (!isEnd ·) with
  | ']' :: rest => afterBrackets? { d with span := some span } whole (stop + 1) rest
  | '\x7b' :: rest => do
    let d := { d with span := if span.isEmpty then none else some span }
    let last := stop + 1 + octetLength (rest.takeWhile (· != '\x7d'))
    let field ← field? (cut (stop + 1) last whole)
    match rest.dropWhile (· != '\x7d') with
    | _ :: ']' :: rest => afterBrackets? { d with field := some field } whole (last + 2) rest
    | _ => none
  | _ => none

/-- Reads a directive.  The places of its parts are found without the blanks at its ends, but the
parts are cut out at the same places of the text with them. -/
def read? (whole : List Char) : Option LogDirective :=
  let s := Chars.trim whole
  match s with
  | [] => none
  | '[' :: rest => brackets? (all fullRank) whole 1 rest
  | first :: _ =>
    if !(['-', ':', '_'].contains first || isAlphanumeric first) then none
    else
      let head := s.takeWhile fun c => c != '=' && c != '['
      let place := octetLength head
      let named : LogDirective :=
        { all fullRank with component := some (String.ofList (cut 0 place whole)) }
      match s.drop head.length with
      | '=' :: _ => named.withLevel? (dropOctets (place + 1) whole)
      | '[' :: rest => brackets? named whole (place + 1) rest
      | _ =>
        -- A single word is a level if it can be one, else a component.
        match rank? whole with
        | some rank => some (all rank)
        | none => some { all fullRank with component := some (String.ofList whole) }

/-- Whether a directive is about the messages of a component.  Messages stand in no span of work,
and their only field is the message itself, which no value is compared with. -/
def fits (d : LogDirective) (component : String) : Bool :=
  d.component.all (Text.hasStart · component) && d.span.isNone
    && d.field.all fun f => f.name == "message" && f.value.isNone

/-- Whether a directive that fits is at least as close as another: the longer name of a component is
closer, and of the same name the directive with a field. -/
def atLeastAsClose (d other : LogDirective) : Bool :=
  let size := fun (e : LogDirective) => e.component.elim 0 (octetLength ·.toList + 1)
  size other < size d
    || (size other == size d && (d.field.isSome || other.field.isNone))

end LogDirective

end ParseAudit
