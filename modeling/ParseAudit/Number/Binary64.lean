/-!
# Finite binary floating-point numbers

A `Binary64` is `± significand · 2 ^ exponent` with at most 53 bits of significand and an exponent
of at least -1074.  Every operation computes the exact rational result and rounds it once, to the
nearest number and to an even significand between two nearest ones; what is too large has no
result.  All arithmetic is on natural numbers.
-/

namespace ParseAudit

/-- A finite number of the 64-bit binary format. -/
structure Binary64 where
  negative : Bool
  significand : Nat
  exponent : Int
  deriving DecidableEq, Repr

namespace Binary64

/-- The least exponent, at which zero and the smallest numbers lie. -/
def minExponent : Int := -1074

/-- The greatest exponent. -/
def maxExponent : Int := 971

/-- The number of bits of a significand. -/
def precision : Nat := 53

/-- Positive zero. -/
def zero : Binary64 := ⟨false, 0, minExponent⟩

/-- Whether a number is one of the two zeros. -/
def isZero (x : Binary64) : Bool := x.significand == 0

/-- The number with the other sign. -/
def neg (x : Binary64) : Binary64 := { x with negative := !x.negative }

/-- A quotient to the nearest integer, and to the even one between two. -/
def roundDiv (num den : Nat) : Nat :=
  let q := num / den
  let twice := 2 * (num % den)
  if twice > den || (twice == den && q % 2 == 1) then q + 1 else q

/-- The quotient `num / (den · 2 ^ e)` as numerator and denominator. -/
def scaleDown (num den : Nat) (e : Int) : Nat × Nat :=
  if 0 ≤ e then (num, den * Nat.pow 2 e.toNat) else (num * Nat.pow 2 (-e).toNat, den)

/-- The greatest `e` with `2 ^ e ≤ num / den`, for positive arguments. -/
def floorLog2 (num den : Nat) : Int :=
  let guess : Int := (Nat.log2 num : Int) - (Nat.log2 den : Int)
  let (n, d) := scaleDown num den guess
  if n < d then guess - 1 else guess

/-- The number nearest to `num / den`, if there is one in range. -/
def ofRatio? (negative : Bool) (num den : Nat) : Option Binary64 :=
  if num == 0 then some { zero with negative := negative }
  else
    let exponent := max minExponent (floorLog2 num den - (precision - 1))
    let (n, d) := scaleDown num den exponent
    let significand := roundDiv n d
    let rounded : Binary64 :=
      -- Rounding up can give one bit too many, and then the significand is a power of two.
      if significand == Nat.pow 2 precision then
        ⟨negative, Nat.pow 2 (precision - 1), exponent + 1⟩
      else ⟨negative, significand, exponent⟩
    if rounded.exponent ≤ maxExponent then some rounded else none

/-- The magnitude as numerator and denominator. -/
def ratio (x : Binary64) : Nat × Nat :=
  if 0 ≤ x.exponent then (x.significand * Nat.pow 2 x.exponent.toNat, 1)
  else (x.significand, Nat.pow 2 (-x.exponent).toNat)

/-- The number nearest to a natural number. -/
def ofNat? (n : Nat) : Option Binary64 := ofRatio? false n 1

/-- The rounded product. -/
def mul? (x y : Binary64) : Option Binary64 :=
  let (a, b) := x.ratio
  let (c, d) := y.ratio
  ofRatio? (x.negative != y.negative) (a * c) (b * d)

/-- The rounded quotient; the divisor is not zero. -/
def div? (x y : Binary64) : Option Binary64 :=
  let (a, b) := x.ratio
  let (c, d) := y.ratio
  ofRatio? (x.negative != y.negative) (a * d) (b * c)

/-- The greatest power of ten in range. -/
def maxTenPower : Nat := 308

/-- The number nearest to a power of ten. -/
def tenTo? (power : Nat) : Option Binary64 := ofNat? (Nat.pow 10 power)

/-- Scales a magnitude by a power of ten, in steps of at most 308 and with a rounding in each
step.  A result that is too large has no number; one that is too small is zero. -/
def scaleByTen? (x : Binary64) (power : Int) : Option Binary64 :=
  if power.natAbs ≤ maxTenPower then
    (tenTo? power.natAbs).bind fun p => if 0 ≤ power then x.mul? p else x.div? p
  else if x.isZero then some x
  else if 0 < power then none
  else (tenTo? maxTenPower).bind fun p =>
    (x.div? p).bind fun y => scaleByTen? y (power + maxTenPower)
termination_by power.natAbs
decreasing_by simp only [maxTenPower] at *; omega

end Binary64

end ParseAudit
