import ParseAudit.Number.Binary64
import ParseAudit.Script.Arithmetic
/-!
# Decimal fractions in scripts

A number with a fraction is read as the nearest binary floating-point number, and printed with a
fixed number of places: in full, with an exponent, or in the shorter of these ways.  Digits are
rounded exactly, and to an even digit between two nearest ones.
-/

namespace ParseAudit.Script

/-- A number with a fraction, or one of the two values that stand for none. -/
inductive Fraction where
  | finite (x : Binary64)
  | infinite (negative : Bool)
  | noNumber (negative : Bool)

namespace Fraction

/-- Reads the exponent at the start of a text, if there is one. -/
def readExponent (s : List Char) : Int × List Char :=
  match s with
  | c :: rest =>
    if c.toLower != 'e' then (0, s)
    else
      match rest with
      | '-' :: digits =>
        ((readDigits 10 digits).map fun (n, r) => (-(n : Int), r)).getD (0, s)
      | '+' :: digits => ((readDigits 10 digits).map fun (n, r) => ((n : Int), r)).getD (0, s)
      | digits => ((readDigits 10 digits).map fun (n, r) => ((n : Int), r)).getD (0, s)
  | [] => (0, s)

/-- Reads the magnitude at the start of a text. -/
def readMagnitude (negative : Bool) (s : List Char) : Option (Fraction × List Char) :=
  let starts := fun (text : String) =>
    text.toList.isPrefixOf (s.map Char.toLower)
  if starts "infinity" then some (.infinite negative, s.drop 8)
  else if starts "inf" then some (.infinite negative, s.drop 3)
  else if starts "nan" then some (.noNumber negative, s.drop 3)
  else
    let whole := s.takeWhile Char.isDigit
    let (places, rest) := match s.drop whole.length with
      | '.' :: rest => (rest.takeWhile Char.isDigit, rest.dropWhile Char.isDigit)
      | rest => ([], rest)
    let digits := whole ++ places
    if digits.isEmpty then none
    else
      let (exponent, rest) := readExponent rest
      let n := digits.foldl (fun n c => n * 10 + (digitValue? c).getD 0) 0
      let power := exponent - places.length
      -- Beyond these powers every number is infinite or zero.
      let value :=
        if n == 0 || power + digits.length < -400 then some { Binary64.zero with negative }
        else if power + digits.length > 400 then none
        else if 0 ≤ power then Binary64.ofRatio? negative (n * Nat.pow 10 power.toNat) 1
        else Binary64.ofRatio? negative n (Nat.pow 10 (-power).toNat)
      some ((value.map .finite).getD (.infinite negative), rest)

/-- Reads the number at the start of a text, with a sign, after blanks. -/
def read (s : List Char) : Option (Fraction × List Char) :=
  match withoutSpace s with
  | '-' :: rest => readMagnitude true rest
  | '+' :: rest => readMagnitude false rest
  | rest => readMagnitude false rest

/-- Whether a number is in the range of the digits that it was read from: it is not infinite, nor
zero unless they are all zeros. -/
def fitsIn (source : List Char) : Fraction → Bool
  | finite x =>
    let mantissa := source.takeWhile (·.toLower != 'e')
    !x.isZero || !mantissa.any fun c => c.isDigit && c != '0'
  | infinite _ => !source.any Char.isDigit
  | noNumber _ => true

/-- Whether a number is below zero, or a zero of that side. -/
def isNegative : Fraction → Bool
  | finite x => x.negative
  | infinite negative => negative
  | noNumber negative => negative

/-- The digits of a magnitude with a number of places. -/
def fixed (num den places : Nat) : List Char :=
  let digits := naturalChars (Binary64.roundDiv (num * Nat.pow 10 places) den)
  let digits := List.replicate (places + 1 - digits.length) '0' ++ digits
  let whole := digits.take (digits.length - places)
  if places == 0 then whole else whole ++ '.' :: digits.drop whole.length

/-- The exponent of the first digit of a positive magnitude, and its digits with a number of
places. -/
def leading (num den places : Nat) : Int × List Char :=
  let guess : Int := (naturalChars num).length - (naturalChars den).length
  let exponent := if isBelow guess then guess - 1 else guess
  let digits := scaled exponent
  if digits.length > places + 1 then (exponent + 1, scaled (exponent + 1)) else (exponent, digits)
where
  /-- Whether the magnitude is below a power of ten. -/
  isBelow (power : Int) : Bool :=
    if 0 ≤ power then num < den * Nat.pow 10 power.toNat
    else num * Nat.pow 10 (-power).toNat < den
  /-- The digits of the magnitude over a power of ten. -/
  scaled (power : Int) : List Char :=
    let shift := places - power
    if 0 ≤ shift then naturalChars (Binary64.roundDiv (num * Nat.pow 10 shift.toNat) den)
    else naturalChars (Binary64.roundDiv num (den * Nat.pow 10 (-shift).toNat))

/-- Digits with a point behind the first one. -/
def pointed (digits : List Char) : List Char :=
  match digits with
  | d :: e :: rest => d :: '.' :: e :: rest
  | digits => digits

/-- An exponent as it is printed. -/
def exponentChars (n : Int) : List Char :=
  let digits := naturalChars n.natAbs
  'e' :: (if n < 0 then '-' else '+') :: (if digits.length < 2 then '0' :: digits else digits)

/-- A number without the zeros behind its last digit that counts. -/
def withoutZeros (s : List Char) : List Char :=
  if !s.contains '.' then s
  else
    let kept := (s.reverse.dropWhile (· == '0')).reverse
    if kept.getLast? == some '.' then kept.dropLast else kept

/-- The magnitude of a number as a conversion prints it. -/
def magnitude (kind : Char) (keepZeros : Bool) (places : Nat) : Fraction → List Char
  | infinite _ => ofText "inf"
  | noNumber _ => ofText "nan"
  | finite x =>
    let (num, den) := x.ratio
    let shown := fun (places : Nat) =>
      if num == 0 then (0, List.replicate (places + 1) '0') else leading num den places
    match kind.toLower with
    | 'f' => fixed num den places
    | 'e' =>
      let (exponent, digits) := shown places
      pointed digits ++ exponentChars exponent
    | _ =>
      let count := max places 1
      let (exponent, digits) := shown (count - 1)
      let strip := fun s => if keepZeros then s else withoutZeros s
      if -4 ≤ exponent && exponent < count then
        strip (fixed num den ((count : Int) - 1 - exponent).toNat)
      else strip (pointed digits) ++ exponentChars exponent

end Fraction

end ParseAudit.Script
