import ParseAudit.Text.Natural
/-!
# Timestamps

The date-time form of RFC 3339: a calendar date, a time of day with up to nine digits of fraction,
and an offset from UTC in whole minutes.  A timestamp keeps the local time and the offset as they
were written, so reading and writing give the same text back up to the ways in which RFC 3339 lets
one moment be spelled (separator, case of `Z`, zeros at the end of the fraction).
-/

namespace ParseAudit

/-- Whether a year of the Gregorian calendar has 366 days. -/
def isLeapYear (year : Nat) : Bool :=
  year % 4 == 0 && (year % 100 != 0 || year % 400 == 0)

/-- The number of days of a month. -/
def daysInMonth (year month : Nat) : Nat :=
  if month == 2 then (if isLeapYear year then 29 else 28)
  else if month == 4 || month == 6 || month == 9 || month == 11 then 30
  else 31

/-- A moment as a local date and time with its offset from UTC in minutes. -/
structure Timestamp where
  year : Nat
  month : Nat
  day : Nat
  hour : Nat
  minute : Nat
  second : Nat
  nanosecond : Nat
  offset : Int
  valid : year ≤ 9999 ∧ (1 ≤ month ∧ month ≤ 12) ∧ (1 ≤ day ∧ day ≤ daysInMonth year month) ∧
    hour ≤ 23 ∧ minute ≤ 59 ∧ second ≤ 59 ∧ nanosecond < 1000000000 ∧ offset.natAbs < 24 * 60
  deriving DecidableEq, Repr

namespace Timestamp

/-- The start of 1970 in UTC. -/
def unixEpoch : Timestamp := ⟨1970, 1, 1, 0, 0, 0, 0, 0, by decide⟩

instance : Inhabited Timestamp := ⟨unixEpoch⟩

/-- A timestamp from its parts, if they are in range. -/
def ofParts? (year month day hour minute second nanosecond : Nat) (offset : Int) :
    Option Timestamp :=
  if h : _ then some ⟨year, month, day, hour, minute, second, nanosecond, offset, h⟩ else none

/-! ## Writing -/

/-- The fraction of a second with its point, without zeros at its end; nothing for a whole
second. -/
def fractionText (nanosecond : Nat) : String :=
  let kept := ((Text.paddedChars 9 nanosecond).reverse.dropWhile (· == '0')).reverse
  if kept.isEmpty then "" else String.ofList ('.' :: kept)

/-- The offset, which is `Z` at UTC. -/
def offsetText (offset : Int) : String :=
  if offset == 0 then "Z"
  else (if offset < 0 then "-" else "+") ++ Text.padded 2 (offset.natAbs / 60) ++ ":"
    ++ Text.padded 2 (offset.natAbs % 60)

/-- The text of a timestamp. -/
def text (t : Timestamp) : String :=
  Text.padded 4 t.year ++ "-" ++ Text.padded 2 t.month ++ "-" ++ Text.padded 2 t.day ++ "T"
    ++ Text.padded 2 t.hour ++ ":" ++ Text.padded 2 t.minute ++ ":" ++ Text.padded 2 t.second
    ++ fractionText t.nanosecond ++ offsetText t.offset

/-! ## Reading -/

/-- Reads exactly `n` digits. -/
def digits? : Nat → Nat → List Char → Option (Nat × List Char)
  | 0, acc, s => some (acc, s)
  | n + 1, acc, c :: cs => (digitValue? c).bind fun d => digits? n (acc * 10 + d) cs
  | _ + 1, _, [] => none

/-- Reads one given character. -/
def char? (expected : Char) : List Char → Option (List Char)
  | c :: cs => if c == expected then some cs else none
  | [] => none

/-- Reads the digits of a fraction: the nanoseconds that they denote, where digits after the ninth
count for nothing.  `unit` is the worth of the next digit. -/
def fractionDigits (unit acc : Nat) : List Char → Nat × List Char
  | [] => (acc, [])
  | c :: cs =>
    match digitValue? c with
    | some d => fractionDigits (unit / 10) (acc + d * unit) cs
    | none => (acc, c :: cs)

/-- Reads a fraction, if a point stands there. -/
def fraction? : List Char → Option (Nat × List Char)
  | '.' :: c :: cs =>
    if (digitValue? c).isSome then some (fractionDigits 100000000 0 (c :: cs)) else none
  | ['.'] => none
  | cs => some (0, cs)

/-- Reads the offset, which ends the text. -/
def offset? : List Char → Option Int
  | ['Z'] | ['z'] => some 0
  | sign :: cs => do
    let negative ← if sign == '-' then some true else if sign == '+' then some false else none
    let (hours, cs) ← digits? 2 0 cs
    let cs ← char? ':' cs
    let (minutes, cs) ← digits? 2 0 cs
    guard (cs.isEmpty ∧ hours ≤ 23 ∧ minutes ≤ 59)
    let total : Int := hours * 60 + minutes
    return if negative then -total else total
  | [] => none

/-- Whether a minute of local time is the last one of a month in UTC, where a second 60 may
stand. -/
def endsMonth (year month day minuteOfDay : Nat) (offset : Int) : Bool :=
  let utc : Int := minuteOfDay - offset
  let last := daysInMonth year month
  -- The date in UTC is the local one, the one before it, or the one after it.
  if utc == 1439 then day == last
  else if utc == 1439 - 1440 then day == 1
  else if utc == 1439 + 1440 then day + 1 == last
  else false

/-- Reads a timestamp.  Any one ASCII character may stand between date and time.  A second 60 at
the end of a month in UTC becomes the last nanosecond of second 59. -/
def ofChars? (s : List Char) : Option Timestamp := do
  let (year, s) ← digits? 4 0 s
  let s ← char? '-' s
  let (month, s) ← digits? 2 0 s
  let s ← char? '-' s
  let (day, s) ← digits? 2 0 s
  let separator ← s.head?
  guard (separator.toNat < 0x80)
  let (hour, s) ← digits? 2 0 s.tail
  let s ← char? ':' s
  let (minute, s) ← digits? 2 0 s
  let s ← char? ':' s
  let (second, s) ← digits? 2 0 s
  let (nanosecond, s) ← fraction? s
  let offset ← offset? s
  -- A leap second is kept as the last nanosecond before it.
  if second == 60 then
    guard (endsMonth year month day (hour * 60 + minute) offset)
    ofParts? year month day hour minute 59 999999999 offset
  else
    ofParts? year month day hour minute second nanosecond offset

/-- Reads a timestamp. -/
def parse? (text : String) : Option Timestamp := ofChars? text.toList

/-! ## Instants -/

/-- The number of days from the start of year 0 to a date. -/
def dayNumber (year month day : Nat) : Nat :=
  let leapDays := (year + 3) / 4 - (year + 99) / 100 + (year + 399) / 400
  let monthDays := ((List.range month).drop 1).map (daysInMonth year)
  year * 365 + leapDays + monthDays.foldl (· + ·) 0 + day - 1

/-- The nanoseconds from the start of year 0 in UTC. -/
def instant (t : Timestamp) : Int :=
  let minutes : Int := (dayNumber t.year t.month t.day * 24 + t.hour) * 60 + t.minute - t.offset
  (minutes * 60 + t.second) * 1000000000 + t.nanosecond

/-- The whole milliseconds from one moment to another, and none if time ran backwards. -/
def millisecondsTo (start stop : Timestamp) : UInt64 :=
  UInt64.ofNat ((stop.instant - start.instant) / 1000000).toNat

end Timestamp

end ParseAudit
