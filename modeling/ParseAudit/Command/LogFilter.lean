import ParseAudit.Command.LogDirective
import ParseAudit.Trace
/-!
# What of the log is shown

A filter is a list of directives, parted by commas.  Of the directives that fit a message the
closest one decides, and of two equally close ones the later.
-/

namespace ParseAudit

/-- A list of directives. -/
structure LogFilter where
  directives : List LogDirective
  deriving DecidableEq, Repr

namespace LogFilter

/-- Reads a filter; one without directives shows errors. -/
def parse? (text : String) : Option LogFilter :=
  let parts := (text.toList.splitOnP (· == ',')).filter (!·.isEmpty)
  (parts.mapM LogDirective.read?).map fun found =>
    ⟨if found.isEmpty then [.all Level.error.rank] else found⟩

/-- The filter that shows messages from the given level on. -/
def upTo (level : Level) : LogFilter := ⟨[.all level.rank]⟩

/-- The directive that decides about a component. -/
def deciding? (f : LogFilter) (component : String) : Option LogDirective :=
  f.directives.foldl (fun best d =>
    if d.fits component && best.all d.atLeastAsClose then some d else best) none

/-- Whether a message is shown. -/
def shows (f : LogFilter) (level : Level) (component : Component) : Bool :=
  (f.deciding? component.name).any fun d => level.rank ≤ d.rank

/-- A character as the log shows it: what could steer a terminal is spelled out. -/
def visibleChar (c : Char) : List Char :=
  let n := c.toNat
  let digits := Nat.toDigits 16 n
  if n == 0x1B || n == 0x7F then '\\' :: 'x' :: digits
  else if n == 0x07 || n == 0x08 || n == 0x0C then '\\' :: 'x' :: '0' :: digits
  else if 0x80 ≤ n && n ≤ 0x9F then '\\' :: 'u' :: '\x7b' :: digits ++ ['\x7d']
  else [c]

/-- A message as the log shows it. -/
def visibleText (text : String) : String := String.ofList (text.toList.flatMap visibleChar)

/-- What the error stream shows of an event. -/
def line (f : LogFilter) : Event → String
  | .message level component text =>
    if f.shows level component then
      level.name ++ " " ++ component.name ++ ": " ++ visibleText text ++ "\n"
    else ""
  | .remark text => text
  | .call _ => ""

/-- What the error stream shows of some events. -/
def text (f : LogFilter) (events : List Event) : String := String.join (events.map f.line)

end LogFilter

end ParseAudit
