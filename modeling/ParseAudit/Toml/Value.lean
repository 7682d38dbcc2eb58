import ParseAudit.Number.Binary64
import ParseAudit.Timestamp
/-!
# TOML values and single values in text

A TOML document is a tree of tables.  Values that no setting is made of (floating-point numbers and
dates) are checked but not kept.  Here is the reading of keys, texts and plain values; arrays and
inline tables, which nest, are read in `ParseAudit.Toml.Document`.
-/

namespace ParseAudit

/-- The values of TOML. -/
inductive Toml where
  | text (s : String)
  | integer (n : Int)
  | float
  | boolean (b : Bool)
  | dateTime
  | array (items : List Toml)
  | table (entries : List (String × Toml))
  deriving Repr, Inhabited

namespace Toml

/-! ## Blanks and comments -/

/-- Spaces and tabs. -/
def isSpace (c : Char) : Bool := c == ' ' || c == '\t'

/-- Skips spaces and tabs. -/
def skipSpace (s : List Char) : List Char := s.dropWhile isSpace

/-- Characters that may stand in a line: no control character but the tab. -/
def isPlain (c : Char) : Bool := c == '\t' || (0x20 ≤ c.toNat && c.toNat != 0x7F)

/-- The text after a line end, if one stands here. -/
def lineEnd? : List Char → Option (List Char)
  | '\n' :: cs => some cs
  | '\r' :: '\n' :: cs => some cs
  | _ => none

/-- Skips a comment, if one stands here, up to its line end. -/
def skipComment : List Char → List Char
  | '#' :: cs => cs.dropWhile isPlain
  | cs => cs

/-- Skips spaces, comments and line ends. -/
def skipLines (s : List Char) : List Char :=
  go s.length s
where
  /-- The fuel bounds the number of lines. -/
  go : Nat → List Char → List Char
    | 0, s => s
    | fuel + 1, s =>
      let s := skipComment (skipSpace s)
      match lineEnd? s with
      | some rest => go fuel rest
      | none => s

/-! ## Texts -/

/-- Reads an escape after its backslash. -/
def escape? : List Char → Option (Char × List Char)
  | 'b' :: cs => some ('\x08', cs)
  | 't' :: cs => some ('\t', cs)
  | 'n' :: cs => some ('\n', cs)
  | 'f' :: cs => some ('\x0c', cs)
  | 'r' :: cs => some ('\r', cs)
  | 'e' :: cs => some ('\x1b', cs)
  | '"' :: cs => some ('"', cs)
  | '\\' :: cs => some ('\\', cs)
  | 'x' :: cs => Chars.codePoint? 2 cs
  | 'u' :: cs => Chars.codePoint? 4 cs
  | 'U' :: cs => Chars.codePoint? 8 cs
  | _ => none

/-- Skips blanks and line ends. -/
def skipBlankLines (s : List Char) : List Char :=
  go s.length s
where
  /-- The fuel bounds the number of lines. -/
  go : Nat → List Char → List Char
    | 0, s => s
    | fuel + 1, s =>
      let s := skipSpace s
      match lineEnd? s with
      | some rest => go fuel rest
      | none => s

/-- Skips the blank lines that a backslash at a line end joins. -/
def joinedLine? (s : List Char) : Option (List Char) :=
  (lineEnd? (skipSpace s)).map skipBlankLines

/-- Reads a text in quotes on one line, after the opening one. -/
def basic? : Nat → List Char → Option (List Char × List Char)
  | 0, _ => none
  | _ + 1, [] => none
  | fuel + 1, c :: cs =>
    if c == '"' then some ([], cs)
    else if c == '\\' then do
      let (d, rest) ← escape? cs
      let (ds, rest) ← basic? fuel rest
      return (d :: ds, rest)
    else if isPlain c then (basic? fuel cs).map fun (ds, rest) => (c :: ds, rest)
    else none

/-- Reads a text in apostrophes on one line, after the opening one. -/
def literal? : List Char → Option (List Char × List Char)
  | [] => none
  | c :: cs =>
    if c == '\'' then some ([], cs)
    else if isPlain c then (literal? cs).map fun (ds, rest) => (c :: ds, rest)
    else none

/-- The delimiters at the end of a text of several lines: up to two more of them belong to the
text. -/
def closing? (quote : Char) (s : List Char) : Option (List Char × List Char) :=
  let run := (s.takeWhile (· == quote)).length
  if run < 3 then none
  else
    -- Of more than five delimiters the last ones start something else.
    let used := min run 5
    some (List.replicate (used - 3) quote, s.drop used)

/-- Reads a text of several lines, after the opening delimiter and the line end beside it. -/
def multiline? (quote : Char) : Nat → List Char → Option (List Char × List Char)
  | 0, _ => none
  | _ + 1, [] => none
  | fuel + 1, c :: cs =>
    match closing? quote (c :: cs) with
    | some done => some done
    | none =>
      if c == '\\' && quote == '"' then
        match joinedLine? cs with
        | some rest => multiline? quote fuel rest
        | none => do
          let (d, rest) ← escape? cs
          let (ds, rest) ← multiline? quote fuel rest
          return (d :: ds, rest)
      else
        match lineEnd? (c :: cs) with
        | some rest =>
          let line := if c == '\r' then ['\r', '\n'] else ['\n']
          (multiline? quote fuel rest).map fun (ds, rest) => (line ++ ds, rest)
        | none =>
          if isPlain c then (multiline? quote fuel cs).map fun (ds, rest) => (c :: ds, rest)
          else none

/-- Reads a text of several lines after its opening delimiter. -/
def multilineText? (quote : Char) (s : List Char) : Option (List Char × List Char) :=
  let s := (lineEnd? s).getD s
  multiline? quote (s.length + 1) s

/-- Reads a text of any of the four kinds, if one starts here. -/
def text? (s : List Char) : Option (List Char × List Char) :=
  match s with
  | '"' :: '"' :: '"' :: cs => multilineText? '"' cs
  | '\'' :: '\'' :: '\'' :: cs => multilineText? '\'' cs
  | '"' :: cs => basic? (cs.length + 1) cs
  | '\'' :: cs => literal? cs
  | _ => none

/-! ## Keys -/

/-- The characters of a key without quotes. -/
def isBareKey (c : Char) : Bool := c.isAlphanum || c == '_' || c == '-'

/-- Reads one part of a key. -/
def keyPart? (s : List Char) : Option (String × List Char) :=
  match s with
  | '"' :: cs => (basic? (cs.length + 1) cs).map fun (k, rest) => (String.ofList k, rest)
  | '\'' :: cs => (literal? cs).map fun (k, rest) => (String.ofList k, rest)
  | s =>
    let name := s.takeWhile isBareKey
    if name.isEmpty then none else some (String.ofList name, s.dropWhile isBareKey)

/-- Reads the parts of a key with points between them. -/
def keyParts? : Nat → List Char → Option (List String × List Char)
  | 0, _ => none
  | fuel + 1, s => do
    let (part, rest) ← keyPart? (skipSpace s)
    match skipSpace rest with
    | '.' :: rest =>
      let (parts, rest) ← keyParts? fuel rest
      return (part :: parts, rest)
    | rest => return ([part], rest)

/-- How deep arrays and inline tables may nest, and how many parts a key may have. -/
def maxDepth : Nat := 80

/-- Reads a key of one or more parts, and the blanks after it. -/
def key? (s : List Char) : Option (List String × List Char) := do
  let (parts, rest) ← keyParts? (s.length + 1) s
  if parts.length ≤ maxDepth then some (parts, rest) else none

/-! ## Numbers -/

/-- Digits of a base with single underscores between them. -/
def digits? (isDigit : Char → Bool) : List Char → Option (List Char)
  | [] => none
  | [c] => if isDigit c then some [c] else none
  | c :: '_' :: cs => if isDigit c then (digits? isDigit cs).map (c :: ·) else none
  | c :: cs => if isDigit c then (digits? isDigit cs).map (c :: ·) else none

/-- The sign in front of a number, and the text after it. -/
def sign : List Char → Bool × List Char
  | '+' :: cs => (false, cs)
  | '-' :: cs => (true, cs)
  | cs => (false, cs)

/-- The value of digits in a base. -/
def valueOf (base : Nat) (digits : List Char) : Nat :=
  digits.foldl (fun acc c => acc * base + (hexValue? c).getD 0) 0

/-- Decimal digits without a zero in front of others. -/
def decimal? (s : List Char) : Option (List Char) := do
  let ds ← digits? Char.isDigit s
  if ds.head? == some '0' && ds.length > 1 then none else some ds

/-- The integers that can be read; a document with a larger one is refused. -/
def inRange (n : Int) : Bool := -(Int.ofNat (Nat.pow 2 127)) ≤ n && n < Nat.pow 2 128

/-- Reads a whole number. -/
def integer? (s : List Char) : Option Int := do
  let n : Int ← match s with
    | '0' :: 'x' :: cs =>
      (digits? (fun c => (hexValue? c).isSome) cs).map (Int.ofNat <| valueOf 16 ·)
    | '0' :: 'o' :: cs =>
      (digits? (fun c => '0' ≤ c && c ≤ '7') cs).map (Int.ofNat <| valueOf 8 ·)
    | '0' :: 'b' :: cs =>
      (digits? (fun c => c == '0' || c == '1') cs).map (Int.ofNat <| valueOf 2 ·)
    | cs =>
      let (negative, ds) := sign cs
      (decimal? ds).map fun ds =>
        if negative then -Int.ofNat (valueOf 10 ds) else Int.ofNat (valueOf 10 ds)
  if inRange n then some n else none

/-- Whether `digits · 10 ^ power` is too large for a floating-point number. -/
def overflows (digits : Nat) (power : Int) : Bool :=
  let count : Int := (Nat.toDigits 10 digits).length
  if digits == 0 || count + power < 300 then false
  else if count + power > 320 then true
  else
    let (num, den) :=
      if 0 ≤ power then (digits * Nat.pow 10 power.toNat, 1)
      else (digits, Nat.pow 10 (-power).toNat)
    (Binary64.ofRatio? false num den).isNone

/-- The parts of a floating-point number: whole part, fraction and exponent. -/
def floatParts? (s : List Char) : Option (List Char × List Char × Int) := do
  let isExponent := fun c => c == 'e' || c == 'E'
  let mantissa := s.takeWhile (!isExponent ·)
  let exponent ← match s.dropWhile (!isExponent ·) with
    | [] => some 0
    | _ :: cs =>
      let (negative, ds) := sign cs
      (digits? Char.isDigit ds).map fun ds =>
        if negative then -Int.ofNat (valueOf 10 ds) else Int.ofNat (valueOf 10 ds)
  let whole := mantissa.takeWhile (· != '.')
  match mantissa.dropWhile (· != '.') with
  | [] => if mantissa.length == s.length then none else return (← decimal? whole, [], exponent)
  | _ :: cs => return (← decimal? whole, ← digits? Char.isDigit cs, exponent)

/-- Whether a text is a floating-point number in range. -/
def isFloat (s : List Char) : Bool :=
  let (_, s) := sign s
  s == ['i', 'n', 'f'] || s == ['n', 'a', 'n'] ||
    match floatParts? s with
    | some (whole, fraction, exponent) =>
      !overflows (valueOf 10 (whole ++ fraction)) (exponent - fraction.length)
    | none => false

/-! ## Dates and times -/

/-- Reads a date. -/
def date? (s : List Char) : Option (List Char) := do
  let (year, s) ← Timestamp.digits? 4 0 s
  let s ← Timestamp.char? '-' s
  let (month, s) ← Timestamp.digits? 2 0 s
  let s ← Timestamp.char? '-' s
  let (day, s) ← Timestamp.digits? 2 0 s
  guard (1 ≤ month ∧ month ≤ 12 ∧ 1 ≤ day ∧ day ≤ daysInMonth year month)
  return s

/-- Reads a time of day; the seconds may be left out. -/
def time? (s : List Char) : Option (List Char) := do
  let (hour, s) ← Timestamp.digits? 2 0 s
  let s ← Timestamp.char? ':' s
  let (minute, s) ← Timestamp.digits? 2 0 s
  guard (hour ≤ 23 ∧ minute ≤ 59)
  match s with
  | ':' :: s =>
    let (second, s) ← Timestamp.digits? 2 0 s
    guard (second ≤ 60)
    let (_, s) ← Timestamp.fraction? s
    return s
  | s => return s

/-- Whether a text is a date, a time of day, or both with or without an offset. -/
def isDateTime (s : List Char) : Bool :=
  match date? s with
  | some [] => true
  | some (separator :: s) =>
    (separator == 'T' || separator == 't' || separator == ' ') &&
      match time? s with
      | some [] => true
      | some rest => (Timestamp.offset? rest).isSome
      | none => false
  | none => time? s == some []

/-- The characters of a plain value. -/
def isScalar (c : Char) : Bool :=
  c.isAlphanum || c == '+' || c == '-' || c == '_' || c == '.' || c == ':'

/-- Cuts off a plain value.  One space may stand between a date and a time. -/
def takeScalar (s : List Char) : List Char × List Char :=
  let head := s.takeWhile isScalar
  match s.dropWhile isScalar with
  | ' ' :: c :: cs =>
    if c.isDigit && date? head == some [] then
      (head ++ ' ' :: (c :: cs).takeWhile isScalar, (c :: cs).dropWhile isScalar)
    else (head, ' ' :: c :: cs)
  | rest => (head, rest)

/-- Reads a value that is neither a text nor a container. -/
def scalar? (s : List Char) : Option (Toml × List Char) :=
  let (word, rest) := takeScalar s
  if word == ['t', 'r', 'u', 'e'] then some (.boolean true, rest)
  else if word == ['f', 'a', 'l', 's', 'e'] then some (.boolean false, rest)
  else
    match integer? word with
    | some n => some (.integer n, rest)
    | none =>
      if isFloat word then some (.float, rest)
      else if isDateTime word then some (.dateTime, rest)
      else none

end Toml

end ParseAudit
