import ParseAudit.Number.Binary64
import ParseAudit.Text.Natural
/-!
# Shortest decimal text

The text of a floating-point number has the fewest significant digits that read back as the same
number, and among those the digits nearest to it.  Numbers from `0.00001` up to below `1e16` are
written with a point; outside that range an exponent follows the digits.
-/

namespace ParseAudit.Binary64

/-- The number of decimal digits. -/
def digitCount (n : Nat) : Nat := (Nat.toDigits 10 n).length

/-- The greatest `e` with `10 ^ e ≤ num / den`, for positive arguments. -/
def floorLog10 (num den : Nat) : Int :=
  if den ≤ num then (digitCount (num / den) : Int) - 1
  else -(digitCount ((den + num - 1) / num - 1) : Int)

/-- A decimal significand and its power of ten. -/
structure Decimal where
  digits : Nat
  power : Int
  deriving DecidableEq, Repr

/-- A rational number that is not negative, as numerator and denominator. -/
abbrev Ratio := Nat × Nat

/-- Whether one ratio is less than another. -/
def Ratio.lt (x y : Ratio) : Bool := x.1 * y.2 < y.1 * x.2

/-- The value of a decimal. -/
def Decimal.ratio (d : Decimal) : Ratio :=
  if 0 ≤ d.power then (d.digits * Nat.pow 10 d.power.toNat, 1)
  else (d.digits, Nat.pow 10 (-d.power).toNat)

/-- The ratio `n · 2 ^ e`. -/
def dyadic (n : Nat) (e : Int) : Ratio :=
  if 0 ≤ e then (n * Nat.pow 2 e.toNat, 1) else (n, Nat.pow 2 (-e).toNat)

/-- Whether a ratio is read as the magnitude of `x`: it lies no further than half a step away, and
at exactly half a step only if the significand is even. -/
def readsAs (x : Binary64) (r : Ratio) : Bool :=
  let m := x.significand
  -- Below a power of two the numbers lie twice as close together.
  let low :=
    if m == Nat.pow 2 (precision - 1) && minExponent < x.exponent then
      dyadic (4 * m - 1) (x.exponent - 2)
    else dyadic (2 * m - 1) (x.exponent - 1)
  let high := dyadic (2 * m + 1) (x.exponent - 1)
  if m % 2 == 0 then !Ratio.lt r low && !Ratio.lt high r else Ratio.lt low r && Ratio.lt r high

/-- The multiple of `10 ^ power` nearest to the magnitude of `x`, among the two around it that are
read as `x`. -/
def onGrid? (x : Binary64) (power : Int) : Option Decimal :=
  let (num, den) := x.ratio
  let (n, d) := if 0 ≤ power then (num, den * Nat.pow 10 power.toNat)
    else (num * Nat.pow 10 (-power).toNat, den)
  let below : Decimal := ⟨n / d, power⟩
  let above : Decimal := ⟨n / d + 1, power⟩
  let belowOk := readsAs x below.ratio
  let aboveOk := readsAs x above.ratio
  -- Of two that read back the nearer one counts, and the even one at equal distance.
  if belowOk && aboveOk then
    if 2 * (n % d) < d || (2 * (n % d) == d && n / d % 2 == 0) then some below else some above
  else if belowOk then some below
  else if aboveOk then some above
  else none

/-- The first decimal found on finer and finer grids. -/
def shortestFrom (x : Binary64) (power : Int) : Nat → Decimal
  | 0 => (onGrid? x power).getD ⟨0, 0⟩
  | finer + 1 => (onGrid? x power).getD (shortestFrom x (power - 1) finer)

/-- The shortest decimal of a magnitude that is not zero; seventeen digits always suffice. -/
def shortest (x : Binary64) : Decimal :=
  let (num, den) := x.ratio
  shortestFrom x (floorLog10 num den + 1) 17

/-- The digits without trailing zeros, and the power of ten of the first digit. -/
def Decimal.leading (d : Decimal) : List Char × Int :=
  let all := Nat.toDigits 10 d.digits
  let kept := (all.reverse.dropWhile (· == '0')).reverse
  (kept, d.power + (all.length : Int) - 1)

/-- Digits with a point after the first `before` of them, filled up with zeros on both sides. -/
def positional (digits : List Char) (before : Int) : List Char :=
  if before ≤ 0 then
    ['0', '.'] ++ List.replicate (-before).toNat '0' ++ digits
  else
    let n := before.toNat
    let whole := digits.take n ++ List.replicate (n - digits.length) '0'
    let fraction := digits.drop n
    whole ++ ['.'] ++ (if fraction.isEmpty then ['0'] else fraction)

/-- Digits with a point after the first one, and the exponent with its sign. -/
def scientific (digits : List Char) (exponent : Int) : List Char :=
  let fraction := digits.drop 1
  digits.take 1 ++ (if fraction.isEmpty then [] else '.' :: fraction) ++ ['e'] ++
    (if exponent < 0 then ['-'] else ['+']) ++ Nat.toDigits 10 exponent.natAbs

/-- The text of a number. -/
def text (x : Binary64) : String :=
  let magnitude :=
    if x.isZero then ['0', '.', '0']
    else
      let (digits, exponent) := x.shortest.leading
      if -5 ≤ exponent ∧ exponent < 16 then positional digits (exponent + 1)
      else scientific digits exponent
  String.ofList (if x.negative then '-' :: magnitude else magnitude)

end ParseAudit.Binary64
