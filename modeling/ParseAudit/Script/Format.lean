import ParseAudit.Script.Decimal
import ParseAudit.Script.Options
/-!
# Printing

What `echo` and `printf` print: escapes, and a format whose conversions take the arguments one after
another, round after round until they are used up.
-/

namespace ParseAudit.Script.Format

/-! ## Escapes -/

/-- The value of an octal digit. -/
def octalValue? (c : Char) : Option Nat := (digitValue? c).filter (· < 8)

/-- Reads at most `n` octal digits. -/
def octal : Nat → Nat → List Char → Nat × List Char
  | 0, acc, s => (acc, s)
  | _ + 1, acc, [] => (acc, [])
  | n + 1, acc, c :: s =>
    match octalValue? c with
    | some d => octal n (acc * 8 + d) s
    | none => (acc, c :: s)

/-- The character that an escape with one letter stands for. -/
def escapeLetter? : Char → Option Char
  | 'a' => some '\x07'
  | 'b' => some '\x08'
  | 'e' => some '\x1b'
  | 'f' => some '\x0c'
  | 'n' => some '\n'
  | 'r' => some '\r'
  | 't' => some '\t'
  | 'v' => some '\x0b'
  | '\\' => some '\\'
  | _ => none

/-- The character that an escape stands for after its backslash, and the text after it. -/
def escape (c : Char) (rest : List Char) : List Char × List Char :=
  if (octalValue? c).isSome then
    let (n, rest) := octal 3 0 (c :: rest)
    ([Char.ofNat (n % 256)], rest)
  else
    match escapeLetter? c with
    | some e => ([e], rest)
    | none => (['\\', c], rest)

/-- Replaces the escapes of an argument; the fuel bounds its length.  Gives the text, and whether
`\c` cut it short. -/
def unescapeWithin : Nat → List Char → List Char × Bool
  | 0, s => (s, false)
  | _ + 1, [] => ([], false)
  | _ + 1, ['\\'] => (['\\'], false)
  | fuel + 1, '\\' :: c :: rest =>
    if c == 'c' then ([], true)
    else
      let (chars, rest) := match rest with
        -- A zero may stand in front of the digits of a number.
        | d :: others => if c == '0' && (octalValue? d).isSome then escape d others
          else escape c rest
        | [] => escape c rest
      let (text, short) := unescapeWithin fuel rest
      (chars ++ text, short)
  | fuel + 1, c :: rest =>
    let (text, short) := unescapeWithin fuel rest
    (c :: text, short)

/-- Replaces the escapes of an argument. -/
def unescape (s : List Char) : List Char × Bool := unescapeWithin (s.length + 1) s

/-- What `echo` prints. -/
def echo (args : List (List Char)) : List Char :=
  let (args, stop) := match args with
    | ['-', 'n'] :: rest => (rest, [])
    | args => (args, ['\n'])
  let (text, short) := unescape ([' '].intercalate args)
  if short then text else text ++ stop

/-! ## Conversions -/

/-- Puts zeros in front of digits up to a number of them. -/
def padZeros (count : Nat) (digits : List Char) : List Char :=
  List.replicate (count - digits.length) '0' ++ digits

/-- How a conversion prints its argument. -/
structure Spec where
  flags : List Char
  width : Nat
  places : Option Nat

namespace Spec

/-- Fills a text up to the width.  Zeros stand between a sign and its digits. -/
def fill (spec : Spec) (zeros : Bool) (sign text : List Char) : List Char :=
  let missing := spec.width - (sign ++ text).length
  if spec.flags.contains '-' then sign ++ text ++ List.replicate missing ' '
  else if zeros && spec.flags.contains '0' then sign ++ List.replicate missing '0' ++ text
  else List.replicate missing ' ' ++ sign ++ text

/-- The sign in front of a number. -/
def sign (spec : Spec) (negative : Bool) : List Char :=
  if negative then ['-']
  else if spec.flags.contains '+' then ['+']
  else if spec.flags.contains ' ' then [' ']
  else []

/-- Prints a whole number with a sign. -/
def signed (spec : Spec) (n : Int) : List Char :=
  let digits := naturalChars n.natAbs
  let digits := padZeros (spec.places.getD 0) digits
  let digits := if n == 0 && spec.places == some 0 then [] else digits
  spec.fill spec.places.isNone (spec.sign (n < 0)) digits

/-- Prints the bits of a whole number in a base. -/
def unsigned (spec : Spec) (kind : Char) (n : Int) : List Char :=
  let base := if kind == 'o' then 8 else if kind == 'u' then 10 else 16
  let digits := Nat.toDigits base (Arith.bits n)
  let digits := padZeros (spec.places.getD 0) digits
  let digits := if n == 0 && spec.places == some 0 then [] else digits
  let alternate := spec.flags.contains '#'
  let isOpen := alternate && kind == 'o' && digits.head? != some '0'
  let digits := if isOpen then '0' :: digits else digits
  let mark := if alternate && base == 16 && n != 0 then ['0', 'x'] else []
  let text := spec.fill spec.places.isNone mark digits
  if kind == 'X' then text.map Char.toUpper else text

/-- Prints a number with a fraction. -/
def fraction (spec : Spec) (kind : Char) (x : Fraction) : List Char :=
  let isFinite := match x with
    | .finite _ => true
    | _ => false
  let digits := x.magnitude kind (spec.flags.contains '#') (spec.places.getD 6)
  let text := spec.fill isFinite (spec.sign x.isNegative) digits
  if kind.isUpper then text.map Char.toUpper else text

end Spec

/-! ## Formats -/

/-- The state of a printing: the arguments that are left, and what was printed. -/
structure Printing where
  args : List (List Char)
  printed : List Char
  /-- Whether an argument was not what its conversion wants. -/
  failed : Bool
  /-- Whether nothing more is printed. -/
  ended : Bool

/-- A computation of a printing. -/
abbrev Print := StateT Printing Exec

/-- Takes the next argument, if there is one. -/
def nextArg? : Print (Option (List Char)) := do
  let p ← get
  set { p with args := p.args.tail }
  return p.args.head?

/-- Prints a text. -/
def put (text : List Char) : Print Unit :=
  modify fun p => { p with printed := p.printed ++ text }

/-- Says that an argument was not what its conversion wants. -/
def warn (text : List Char) : Print Unit := do
  Exec.complain (text) 1
  modify ({ · with failed := true })

/-- Says how much of an argument was read, if not all of it, or that its number is out of range. -/
def checkRest (arg : List Char) (inRange : Bool) (rest : Option (List Char)) : Print Unit :=
  match rest with
  | some [] =>
    if inRange then return () else warn (arg ++ ofText ": Numerical result out of range")
  | some _ => warn (arg ++ ofText ": not completely converted")
  | none => if arg.isEmpty then return () else warn (arg ++ ofText ": expected numeric value")

/-- The number of the character behind a quote; at the end of an argument it is zero. -/
def codeBehindQuote? : List Char → Option Nat
  | '"' :: rest | '\'' :: rest => some (rest.head?.elim 0 Char.toNat)
  | _ => none

/-- The nearest number of 64 bits, with a sign or without one, where a negative number stands for
the bits that it has in common with a positive one. -/
def nearest (isSigned : Bool) (n : Int) : Int :=
  if isSigned then Arith.clamp n
  else if n.natAbs < Arith.wordSize then n
  else (Arith.wordSize : Int) - 1

/-- The next argument as a whole number; one that is missing counts as zero. -/
def nextInteger (isSigned : Bool) : Print Int := do
  match ← nextArg? with
  | none => return 0
  | some arg =>
    match codeBehindQuote? arg with
    | some code => return code
    | none =>
      let found := readInteger false arg
      let n := (found.map (·.1)).getD 0
      checkRest arg (nearest isSigned n == n) (found.map (·.2))
      return nearest isSigned n

/-- The next argument as a number with a fraction. -/
def nextFraction : Print Fraction := do
  let zero := Fraction.finite Binary64.zero
  match ← nextArg? with
  | none => return zero
  | some arg =>
    let found := Fraction.read (((codeBehindQuote? arg).map naturalChars).getD arg)
    let x := (found.map (·.1)).getD zero
    checkRest arg (x.fitsIn arg) (found.map (·.2))
    return x

/-- Reads a width or a number of places: digits, or a star that takes an argument. -/
def number (s : List Char) : Print (Option Int × List Char) := do
  match s with
  | '*' :: rest => return (some (← nextInteger true), rest)
  | s =>
    match readDigits 10 s with
    | some (n, rest) => return (some n, rest)
    | none => return (none, s)

/-- Prints what a conversion makes of the next argument. -/
def convert (spec : Spec) (kind : Char) (source : List Char) : Print Unit := do
  if kind == 's' || kind == 'c' || kind == 'b' then
    let arg := (← nextArg?).getD []
    let (text, short) := if kind == 'b' then unescape arg else (arg, false)
    -- Without a character the one that ends texts is printed.
    let text := if kind == 'c' then (text ++ ['\x00']).take 1 else
      match spec.places with
      | some n => text.take n
      | none => text
    put (spec.fill false [] text)
    modify fun p => { p with ended := p.ended || short }
  else if kind == 'd' || kind == 'i' then put (spec.signed (← nextInteger true))
  else if ['o', 'u', 'x', 'X'].contains kind then
    put (spec.unsigned kind (← nextInteger false))
  else if ['e', 'E', 'f', 'F', 'g', 'G'].contains kind then
    put (spec.fraction kind (← nextFraction))
  else
    Exec.print (← get).printed
    Exec.fault (source ++ ofText ": invalid directive")

/-- Prints one round of a format; the fuel bounds its length. -/
def round : Nat → List Char → Print Unit
  | 0, _ => return ()
  | _ + 1, [] => return ()
  | fuel + 1, '%' :: '%' :: s => do
    put ['%']
    round fuel s
  | fuel + 1, '%' :: s => do
    let flags := s.takeWhile fun c => ['-', '+', ' ', '0', '#'].contains c
    let (width, rest) ← number (s.drop flags.length)
    let (places, rest) ← match rest with
      | '.' :: rest => do
        let (n, rest) ← number rest
        pure (some (n.getD 0), rest)
      | rest => pure (none, rest)
    let spec : Spec := {
      flags := if width.any (· < 0) then '-' :: flags else flags
      width := (width.getD 0).natAbs
      places := places.bind fun n => if n < 0 then none else some n.toNat }
    match rest with
    | [] =>
      Exec.print (← get).printed
      Exec.fault (ofText "missing format character")
    | kind :: rest =>
      convert spec kind ('%' :: s.take (s.length - rest.length))
      if !(← get).ended then round fuel rest
  | fuel + 1, '\\' :: c :: s => do
    let (chars, rest) := escape c s
    put chars
    round fuel rest
  | fuel + 1, c :: s => do
    put [c]
    round fuel s

/-- Prints round after round as long as arguments are used up; the fuel bounds their number. -/
def rounds : Nat → List Char → Print Unit
  | 0, _ => return ()
  | fuel + 1, format => do
    let before := (← get).args
    round (format.length + 1) format
    let p ← get
    if !p.ended && !p.args.isEmpty && p.args.length < before.length then rounds fuel format

/-- Runs `printf`. -/
def printf (args : List (List Char)) : Exec Unit := do
  let (_, args) ← Options.read [] args
  match args with
  | [] => Exec.fault (ofText "usage: printf format [arg ...]")
  | format :: args =>
    let ((), p) ← (rounds (args.length + 1) format).run ⟨args, [], false, false⟩
    Exec.print p.printed
    Exec.setStatus (if p.failed then 1 else 0)

end ParseAudit.Script.Format
