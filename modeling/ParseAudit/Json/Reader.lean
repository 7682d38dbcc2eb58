import ParseAudit.Json.Value
/-!
# Reading JSON

The reader takes RFC 8259 strictly: no comment, no trailing comma, no raw control character, no
half of a surrogate pair, nothing after the value but white space.  Containers nest at most 127
deep.  Of two members with one key the later counts, and members are sorted by key.

A number without point and exponent is kept whole while it fits 64 bits.  Any other number takes
its leading digits as long as they fit 64 bits, and that significand is scaled by a power of ten.
-/

namespace ParseAudit.Json

namespace Reader

/-- White space between tokens. -/
def isSpace (c : Char) : Bool := c == ' ' || c == '\n' || c == '\t' || c == '\r'

/-- The text from the next token on. -/
def skipSpace (s : List Char) : List Char := s.dropWhile isSpace

/-! ## Numbers -/

/-- Whether one more digit keeps a significand within 64 bits. -/
def digitFits (significand digit : Nat) : Bool := significand * 10 + digit < UInt64.size

/-- A significand with a power of ten, and the text after it. -/
structure Scan where
  significand : Nat
  power : Int
  rest : List Char

/-- Reads digits into a significand for as long as it fits; what is left may start with a digit. -/
def wholeDigits (significand : Nat) : List Char → Nat × List Char
  | [] => (significand, [])
  | c :: cs =>
    match digitValue? c with
    | some d => if digitFits significand d then wholeDigits (significand * 10 + d) cs
      else (significand, c :: cs)
    | none => (significand, c :: cs)

/-- Skips digits and counts them. -/
def countDigits : List Char → Nat × List Char
  | [] => (0, [])
  | c :: cs =>
    match digitValue? c with
    | some _ => let (n, rest) := countDigits cs; (n + 1, rest)
    | none => (0, c :: cs)

/-- Reads the digits after a point; those that no longer fit are skipped. -/
def fractionDigits (significand : Nat) (power : Int) : List Char → Scan
  | [] => ⟨significand, power, []⟩
  | c :: cs =>
    match digitValue? c with
    | some d => if digitFits significand d then fractionDigits (significand * 10 + d) (power - 1) cs
      else ⟨significand, power, (countDigits cs).2⟩
    | none => ⟨significand, power, c :: cs⟩

/-- The largest exponent that is read as it stands. -/
def largestExponent : Nat := 0x7FFFFFFF

/-- Reads the digits of an exponent up to the 32-bit range, or `none` above it. -/
def exponentDigits (value : Nat) : List Char → Option Nat × List Char
  | [] => (some value, [])
  | c :: cs =>
    match digitValue? c with
    | some d => if value * 10 + d ≤ largestExponent then exponentDigits (value * 10 + d) cs
      else (none, (countDigits cs).2)
    | none => (some value, c :: cs)

/-- A floating-point number and the text after it. -/
def scaled? (negative : Bool) (scan : Scan) : Option (JsonNumber × List Char) := do
  let magnitude ← Binary64.ofNat? scan.significand
  let x ← magnitude.scaleByTen? scan.power
  return (.real (if negative then x.neg else x), scan.rest)

/-- Reads an exponent after its `e`, if one stands there, and scales. -/
def withExponent? (negative : Bool) (scan : Scan) : Option (JsonNumber × List Char) :=
  match scan.rest with
  | c :: cs =>
    if c == 'e' || c == 'E' then
      let (down, digits) := match cs with
        | '+' :: cs => (false, cs)
        | '-' :: cs => (true, cs)
        | cs => (false, cs)
      match digits with
      | d :: ds =>
        if (digitValue? d).isNone then none
        else match exponentDigits 0 (d :: ds) with
          | (some e, rest) =>
            scaled? negative
              ⟨scan.significand, if down then scan.power - e else scan.power + e, rest⟩
          | (none, rest) =>
            -- So large an exponent leaves zero, or a number out of range.
            if scan.significand == 0 || down then scaled? negative ⟨0, 0, rest⟩ else none
      | [] => none
    else scaled? negative scan
  | [] => scaled? negative scan

/-- A whole number that fits; zero below zero and what is too far below zero are not whole. -/
def whole? (negative : Bool) (n : Nat) (rest : List Char) : Option (JsonNumber × List Char) :=
  if negative then
    if h : 0 < n ∧ 2 * n ≤ UInt64.size then some (.negative n h, rest)
    else scaled? true ⟨n, 0, rest⟩
  else if h : n < UInt64.size then some (.natural n h, rest) else none

/-- Reads a point and digits, then an exponent. -/
def afterPoint? (negative : Bool) (significand : Nat) (power : Int) (cs : List Char) :
    Option (JsonNumber × List Char) :=
  match cs with
  | c :: _ =>
    if (digitValue? c).isNone then none
    else withExponent? negative (fractionDigits significand power cs)
  | [] => none

/-- Reads a number without its sign. -/
def magnitude? (negative : Bool) (s : List Char) : Option (JsonNumber × List Char) :=
  match s with
  | [] => none
  | c :: cs =>
    if (digitValue? c).isNone then none
    else
      let (significand, rest) := if c == '0' then (0, cs) else wholeDigits 0 (c :: cs)
      match rest with
      | [] => whole? negative significand []
      | d :: ds =>
        if d == '.' then afterPoint? negative significand 0 ds
        else if d == 'e' || d == 'E' then withExponent? negative ⟨significand, 0, d :: ds⟩
        else if (digitValue? d).isSome then
          if c == '0' then none
          else
            -- The digits that no longer fit only count for the power of ten.
            let (dropped, more) := countDigits (d :: ds)
            match more with
            | '.' :: fs => afterPoint? negative significand dropped fs
            | more => withExponent? negative ⟨significand, dropped, more⟩
        else whole? negative significand (d :: ds)

/-- Reads a number. -/
def number? (s : List Char) : Option (JsonNumber × List Char) :=
  match s with
  | '-' :: cs => magnitude? true cs
  | cs => magnitude? false cs

/-! ## Texts -/

/-- Reads the four hexadecimal digits of an escape. -/
def hex4? : List Char → Option (Nat × List Char)
  | a :: b :: c :: d :: rest => do
    let a ← hexValue? a
    let b ← hexValue? b
    let c ← hexValue? c
    let d ← hexValue? d
    return (((a * 16 + b) * 16 + c) * 16 + d, rest)
  | _ => none

/-- Reads an escape by code unit after `\u`; a pair of surrogates makes one character. -/
def unicode? (s : List Char) : Option (Char × List Char) := do
  let (unit, rest) ← hex4? s
  if 0xD800 ≤ unit ∧ unit < 0xDC00 then
    match rest with
    -- The first half of a pair must be followed by the second half.
    | '\\' :: 'u' :: rest =>
      let (low, rest) ← hex4? rest
      if 0xDC00 ≤ low ∧ low < 0xE000 then
        some (Char.ofNat (0x10000 + (unit - 0xD800) * 0x400 + (low - 0xDC00)), rest)
      else none
    | _ => none
  else if 0xDC00 ≤ unit ∧ unit < 0xE000 then none
  else some (Char.ofNat unit, rest)

/-- The character that a one-letter escape stands for. -/
def shortEscape? (c : Char) : Option Char :=
  if c == '"' then some '"'
  else if c == '\\' then some '\\'
  else if c == '/' then some '/'
  else if c == 'b' then some '\x08'
  else if c == 'f' then some '\x0c'
  else if c == 'n' then some '\n'
  else if c == 'r' then some '\r'
  else if c == 't' then some '\t'
  else none

theorem length_of_hex4? {s rest : List Char} {n : Nat} (h : hex4? s = some (n, rest)) :
    rest.length < s.length := by
  match s with
  | a :: b :: c :: d :: r =>
    simp only [hex4?, Option.bind_eq_bind, Option.bind_eq_some_iff, Option.pure_def,
      Option.some.injEq, Prod.mk.injEq] at h
    obtain ⟨_, _, _, _, _, _, _, _, _, rfl⟩ := h
    simp only [List.length_cons]; omega
  | [] | [_] | [_, _] | [_, _, _] => simp [hex4?] at h

theorem length_of_unicode? {s rest : List Char} {c : Char} (h : unicode? s = some (c, rest)) :
    rest.length < s.length := by
  simp only [unicode?, Option.bind_eq_bind, Option.bind_eq_some_iff] at h
  obtain ⟨⟨unit, more⟩, hx, h⟩ := h
  have hl := length_of_hex4? hx
  simp only at h
  split at h
  · split at h
    · simp only [Option.bind_eq_some_iff] at h
      obtain ⟨⟨low, more'⟩, hx', h⟩ := h
      have hl' := length_of_hex4? hx'
      simp only at h
      split at h
      · simp only [Option.some.injEq, Prod.mk.injEq] at h
        obtain ⟨_, rfl⟩ := h
        simp only [List.length_cons] at hl; omega
      · simp at h
    · simp at h
  · split at h
    · simp at h
    · simp only [Option.some.injEq, Prod.mk.injEq] at h
      obtain ⟨_, rfl⟩ := h
      exact hl

/-- Reads a text after its opening quote. -/
def text? (s : List Char) : Option (List Char × List Char) :=
  match s with
  | [] => none
  | c :: cs =>
    if c == '"' then some ([], cs)
    else if c == '\\' then
      match cs with
      | [] => none
      | 'u' :: digits =>
        match _h : unicode? digits with
        | some (d, rest) => (text? rest).map fun (ds, rest) => (d :: ds, rest)
        | none => none
      | e :: rest => do
        let d ← shortEscape? e
        (text? rest).map fun (ds, rest) => (d :: ds, rest)
    else if c.toNat < 0x20 then none
    else (text? cs).map fun (ds, rest) => (c :: ds, rest)
termination_by s.length
decreasing_by
  · have := length_of_unicode? _h
    simp only [List.length_cons]; omega
  · simp only [List.length_cons]; omega
  · simp only [List.length_cons]; omega

/-! ## Values -/

mutual

/-- Reads a value at the start of a text.  `depth` containers may still be opened; the fuel bounds
the number of tokens. -/
def value? (fuel depth : Nat) (s : List Char) : Option (Json × List Char) :=
  match fuel with
  | 0 => none
  | fuel + 1 =>
    match skipSpace s with
    | 'n' :: 'u' :: 'l' :: 'l' :: rest => some (.null, rest)
    | 't' :: 'r' :: 'u' :: 'e' :: rest => some (.bool true, rest)
    | 'f' :: 'a' :: 'l' :: 's' :: 'e' :: rest => some (.bool false, rest)
    | '"' :: cs => (text? cs).map fun (t, rest) => (.str (String.ofList t), rest)
    | '[' :: cs =>
      match depth with
      | 0 => none
      | depth + 1 =>
        match skipSpace cs with
        | ']' :: rest => some (.arr [], rest)
        | cs => (items? fuel depth cs).map fun (items, rest) => (.arr items, rest)
    | '{' :: cs =>
      match depth with
      | 0 => none
      | depth + 1 =>
        match skipSpace cs with
        | '}' :: rest => some (.obj [], rest)
        | cs => (members? fuel depth [] cs).map fun (members, rest) => (.obj members, rest)
    | cs => (number? cs).map fun (n, rest) => (.num n, rest)

/-- Reads the items of an array up to its end. -/
def items? (fuel depth : Nat) (s : List Char) : Option (List Json × List Char) :=
  match fuel with
  | 0 => none
  | fuel + 1 => do
    let (first, rest) ← value? fuel depth s
    match skipSpace rest with
    | ',' :: rest =>
      let (others, rest) ← items? fuel depth rest
      return (first :: others, rest)
    | ']' :: rest => return ([first], rest)
    | _ => none

/-- Reads the members of an object up to its end and adds them to those already read. -/
def members? (fuel depth : Nat) (known : Members) (s : List Char) :
    Option (Members × List Char) :=
  match fuel with
  | 0 => none
  | fuel + 1 => do
    match skipSpace s with
    | '"' :: cs =>
      let (key, rest) ← text? cs
      match skipSpace rest with
      | ':' :: rest =>
        let (v, rest) ← value? fuel depth rest
        let known := known.insert (String.ofList key) v
        match skipSpace rest with
        | ',' :: rest => members? fuel depth known rest
        | '}' :: rest => return (known, rest)
        | _ => none
      | _ => none
    | _ => none

end

end Reader

/-- How many containers may be open at a time. -/
def maxDepth : Nat := 127

/-- The value that a text of characters denotes. -/
def ofChars? (s : List Char) : Option Json := do
  let (value, rest) ← Reader.value? (2 * s.length + 2) maxDepth s
  if (Reader.skipSpace rest).isEmpty then some value else none

/-- The value that a text denotes. -/
def parse? (text : String) : Option Json := ofChars? text.toList

end ParseAudit.Json
