import ParseAudit.Text.Blank
/-!
# Natural numbers in decimal

How the formats write and read natural numbers: plain ASCII digits, most significant first.  A
reader may allow one `+` in front, and it may refuse a number that is too large.
-/

namespace ParseAudit

/-- The value of an ASCII digit. -/
def digitValue? (c : Char) : Option Nat :=
  if '0' ≤ c ∧ c ≤ '9' then some (c.toNat - '0'.toNat) else none

/-- The value of an ASCII digit in base sixteen, of either case. -/
def hexValue? (c : Char) : Option Nat :=
  if '0' ≤ c ∧ c ≤ '9' then some (c.toNat - '0'.toNat)
  else if 'a' ≤ c ∧ c ≤ 'f' then some (c.toNat - 'a'.toNat + 10)
  else if 'A' ≤ c ∧ c ≤ 'F' then some (c.toNat - 'A'.toNat + 10)
  else none

namespace Chars

/-- The number that decimal digits denote after those that gave `acc`; `none` at another
character. -/
def digitsValue? (acc : Nat) : List Char → Option Nat
  | [] => some acc
  | c :: cs => (digitValue? c).bind fun d => digitsValue? (acc * 10 + d) cs

/-- Reads one or more decimal digits after at most one `+`. -/
def natural? (s : List Char) : Option Nat :=
  match s with
  | '+' :: [] => none
  | '+' :: cs => digitsValue? 0 cs
  | [] => none
  | cs => digitsValue? 0 cs

/-- Reads a natural number below `bound`. -/
def naturalBelow? (bound : Nat) (s : List Char) : Option Nat :=
  (natural? s).filter (· < bound)

/-- Reads `n` hexadecimal digits. -/
def hexDigits? : Nat → Nat → List Char → Option (Nat × List Char)
  | 0, acc, s => some (acc, s)
  | n + 1, acc, c :: cs => (hexValue? c).bind fun d => hexDigits? n (acc * 16 + d) cs
  | _ + 1, _, [] => none

/-- Reads a character by its code point, written in `n` hexadecimal digits. -/
def codePoint? (n : Nat) (s : List Char) : Option (Char × List Char) := do
  let (code, rest) ← hexDigits? n 0 s
  if code < 0xD800 ∨ (0xE000 ≤ code ∧ code < 0x110000) then some (Char.ofNat code, rest) else none

end Chars

namespace Text

/-- The decimal digits of a number. -/
def natural (n : Nat) : String := String.ofList (Nat.toDigits 10 n)

/-- The low decimal digits of a number, `width` of them. -/
def paddedChars : Nat → Nat → List Char
  | 0, _ => []
  | width + 1, n => paddedChars width (n / 10) ++ [Nat.digitChar (n % 10)]

/-- The low decimal digits of a number, `width` of them. -/
def padded (width n : Nat) : String := String.ofList (paddedChars width n)

end Text

end ParseAudit
