import ParseAudit.Timestamp
import ParseAudit.Proofs.Text.Numeral
import Mathlib.Data.List.TakeWhile
/-!
# Timestamps are read back

Every part of a timestamp is written in a fixed width, but for the fraction, which loses the zeros
at its end, and the offset, which is one letter at UTC.

* `fraction?_fractionText`: zeros at the end of a fraction count for nothing;
* `offset?_offsetText`: an offset with its sign;
* `parse?_text`: all parts together.
-/

namespace ParseAudit.Timestamp

open Chars Text

/-! ## Parts of a fixed width -/

theorem digits?_append {ds : List Char} (hdigits : ∀ c ∈ ds, c.isDigit = true) (acc : Nat)
    (rest : List Char) :
    digits? ds.length acc (ds ++ rest) = some (Nat.ofDigitChars 10 ds acc, rest) := by
  induction ds generalizing acc with
  | nil => rfl
  | cons c cs ih =>
    rw [List.length_cons, List.cons_append, digits?, digitValue?_eq,
      if_pos (hdigits c List.mem_cons_self), Option.bind_some,
      ih fun d hd => hdigits d (List.mem_cons_of_mem c hd), Nat.ofDigitChars_cons, Nat.mul_comm]

/-- A number is read from as many digits as it was written with. -/
theorem digits?_paddedChars {width n : Nat} (h : n < 10 ^ width) (rest : List Char) :
    digits? width 0 (paddedChars width n ++ rest) = some (n, rest) := by
  have hdigits : ∀ c ∈ paddedChars width n, c.isDigit = true := fun _ => isDigit_of_mem_paddedChars
  have hread := digits?_append hdigits 0 rest
  rwa [length_paddedChars, ofDigitChars_paddedChars, Nat.zero_mul, Nat.zero_add,
    Nat.mod_eq_of_lt h] at hread

/-- Months, days, hours, minutes and seconds are all written with two digits. -/
theorem digits?_two (n : Nat) (h : n < 100) (rest : List Char) :
    digits? 2 0 (paddedChars 2 n ++ rest) = some (n, rest) :=
  digits?_paddedChars h rest

/-! ## The fraction -/

theorem fractionDigits_of_end {rest : List Char} (hrest : ∀ c ∈ rest.head?, c.isDigit = false)
    (unit acc : Nat) : fractionDigits unit acc rest = (acc, rest) := by
  cases rest with
  | nil => rfl
  | cons c cs =>
    rw [fractionDigits, digitValue?_eq, hrest c rfl]
    rfl

/-- The digits of a fraction count from its point on. -/
theorem fractionDigits_append {ds rest : List Char} {m : Nat} (acc : Nat)
    (hdigits : ∀ c ∈ ds, c.isDigit = true) (hrest : ∀ c ∈ rest.head?, c.isDigit = false)
    (hlength : ds.length ≤ m + 1) :
    fractionDigits (10 ^ m) acc (ds ++ rest) =
      (acc + Nat.ofDigitChars 10 ds 0 * 10 ^ (m + 1 - ds.length), rest) := by
  induction ds generalizing m acc with
  | nil => simp [fractionDigits_of_end hrest]
  | cons c cs ih =>
    have hc := hdigits c List.mem_cons_self
    have hcs := fun d hd => hdigits d (List.mem_cons_of_mem c hd)
    have hstep : fractionDigits (10 ^ m) acc (c :: cs ++ rest) =
        fractionDigits (10 ^ m / 10) (acc + (c.toNat - '0'.toNat) * 10 ^ m) (cs ++ rest) := by
      rw [List.cons_append, fractionDigits, digitValue?_eq, if_pos hc]
    rw [List.length_cons] at hlength
    rw [hstep, Nat.ofDigitChars_cons, Nat.ofDigitChars_eq_ofDigitChars_zero, List.length_cons]
    cases m with
    | zero =>
      obtain rfl := List.length_eq_zero_iff.1 (Nat.le_zero.1 (Nat.le_of_succ_le_succ hlength))
      simp [fractionDigits_of_end hrest]
    | succ m =>
      have hpow : 10 ^ cs.length * 10 ^ (m + 1 - cs.length) = 10 ^ (m + 1) := by
        rw [← Nat.pow_add]
        congr 1
        omega
      rw [Nat.pow_succ 10 m, Nat.mul_div_cancel _ (by decide), ih _ hcs (by omega),
        Nat.add_sub_add_right, Nat.mul_zero, Nat.zero_add, Nat.add_mul, Nat.mul_right_comm, hpow,
        Nat.pow_succ 10 m, Nat.mul_comm (10 ^ m * 10), Nat.add_assoc]

/-- What is left of some digits when the zeros at their end are cut off. -/
def withoutZeros (ds : List Char) : List Char := (ds.reverse.dropWhile (· == '0')).reverse

theorem exists_withoutZeros (ds : List Char) :
    ∃ n, ds = withoutZeros ds ++ List.replicate n '0' := by
  let zeros := ds.reverse.takeWhile (· == '0')
  have hzeros : zeros = List.replicate zeros.length '0' :=
    List.eq_replicate_of_mem fun c hc => by simpa using List.mem_takeWhile_imp hc
  refine ⟨zeros.length, ?_⟩
  have hcut : ds.reverse = zeros ++ ds.reverse.dropWhile (· == '0') :=
    List.takeWhile_append_dropWhile.symm
  calc ds = (zeros ++ ds.reverse.dropWhile (· == '0')).reverse := by
        rw [← hcut, List.reverse_reverse]
    _ = withoutZeros ds ++ zeros.reverse := List.reverse_append
    _ = withoutZeros ds ++ List.replicate zeros.length '0' := by
        rw [hzeros, List.reverse_replicate, List.length_replicate]

/-- Nothing that may follow a fraction is taken for a part of it. -/
def EndsFraction (rest : List Char) : Prop := ∀ c ∈ rest.head?, c ≠ '.' ∧ c.isDigit = false

/-- The digits of a fraction that are written, and the number that they and their unit denote. -/
theorem withoutZeros_paddedChars {n : Nat} (hn : n < 1000000000) :
    (∀ c ∈ withoutZeros (paddedChars 9 n), c.isDigit = true) ∧
      (withoutZeros (paddedChars 9 n)).length ≤ 9 ∧
      Nat.ofDigitChars 10 (withoutZeros (paddedChars 9 n)) 0 *
        10 ^ (9 - (withoutZeros (paddedChars 9 n)).length) = n := by
  obtain ⟨k, hk⟩ := exists_withoutZeros (paddedChars 9 n)
  have hlength : 9 = (withoutZeros (paddedChars 9 n)).length + k := by
    have hall := congrArg List.length hk
    rwa [length_paddedChars, List.length_append, List.length_replicate] at hall
  refine ⟨?_, by omega, ?_⟩
  · intro c hc
    have hall : c ∈ paddedChars 9 n := hk ▸ List.mem_append_left _ hc
    exact isDigit_of_mem_paddedChars hall
  · -- The zeros that were left out count nothing; the unit of the last digit makes up for them.
    have hall := ofDigitChars_paddedChars 9 n 0
    have hmod : n % 10 ^ 9 = n := Nat.mod_eq_of_lt hn
    rw [hk, Nat.ofDigitChars_append, Nat.ofDigitChars_replicate_zero, Nat.zero_mul, Nat.zero_add,
      hmod, Nat.mul_comm] at hall
    rwa [show 9 - (withoutZeros (paddedChars 9 n)).length = k by omega]

theorem toList_fractionText (n : Nat) :
    (fractionText n).toList =
      if (withoutZeros (paddedChars 9 n)).isEmpty then []
      else '.' :: withoutZeros (paddedChars 9 n) := by
  show (if (withoutZeros (paddedChars 9 n)).isEmpty then ""
    else String.ofList ('.' :: withoutZeros (paddedChars 9 n))).toList = _
  split <;> simp

/-- A fraction is read back without the zeros at its end. -/
theorem fraction?_fractionText {n : Nat} (hn : n < 1000000000) {rest : List Char}
    (hrest : EndsFraction rest) : fraction? ((fractionText n).toList ++ rest) = some (n, rest) := by
  obtain ⟨hdigits, hlength, hvalue⟩ := withoutZeros_paddedChars hn
  have hend : ∀ c ∈ rest.head?, c.isDigit = false := fun c hc => (hrest c hc).2
  rw [toList_fractionText]
  cases hkept : withoutZeros (paddedChars 9 n) with
  | nil =>
    have hzero : n = 0 := by
      rw [← hvalue, hkept]
      rfl
    subst hzero
    show fraction? rest = some (0, rest)
    unfold fraction?
    split
    · next heq => exact absurd rfl (hrest '.' rfl).1
    · next heq => exact absurd rfl (hrest '.' rfl).1
    · rfl
  | cons c cs =>
    have hc : (digitValue? c).isSome = true := by
      rw [digitValue?_eq, if_pos (hdigits c (hkept ▸ List.mem_cons_self))]
      rfl
    have hread := fractionDigits_append (m := 8) 0 hdigits hend hlength
    rw [hvalue, hkept, Nat.zero_add] at hread
    show fraction? ('.' :: c :: (cs ++ rest)) = _
    rw [fraction?, if_pos hc]
    exact congrArg some hread

/-! ## The offset -/

/-- The hours and the minutes of an offset are read after its sign. -/
theorem offset?_sign {sign : Char} {negative : Bool}
    (hsign : sign = '-' ∧ negative = true ∨ sign = '+' ∧ negative = false) {total : Nat}
    (htotal : total < 24 * 60) :
    offset? (sign :: (paddedChars 2 (total / 60) ++ ':' :: paddedChars 2 (total % 60))) =
      some (if negative then -(total : Int) else total) := by
  have hhours := digits?_two (total / 60) (by omega) (':' :: paddedChars 2 (total % 60))
  have hminutes := digits?_two (total % 60) (by omega) []
  rw [List.append_nil] at hminutes
  have hcolon : char? ':' (':' :: paddedChars 2 (total % 60)) =
      some (paddedChars 2 (total % 60)) := rfl
  have hguard : (guard (([] : List Char).isEmpty ∧ total / 60 ≤ 23 ∧ total % 60 ≤ 59) :
      Option Unit) = some () := if_pos ⟨rfl, by omega, by omega⟩
  have hsum : ((total / 60 : Nat) : Int) * 60 + ((total % 60 : Nat) : Int) = total := by omega
  have hletter : sign ≠ 'Z' ∧ sign ≠ 'z' := by
    rcases hsign with ⟨rfl, -⟩ | ⟨rfl, -⟩ <;> decide
  unfold offset?
  split
  · next heq => exact absurd (List.cons.inj heq).1 hletter.1
  · next heq => exact absurd (List.cons.inj heq).1 hletter.2
  · next heq =>
    obtain ⟨rfl, rfl⟩ := List.cons.inj heq
    rcases hsign with ⟨rfl, rfl⟩ | ⟨rfl, rfl⟩
    all_goals
      refine Option.bind_eq_some_iff.2 ⟨_, hhours, ?_⟩
      refine Option.bind_eq_some_iff.2 ⟨_, hcolon, ?_⟩
      refine Option.bind_eq_some_iff.2 ⟨_, hminutes, ?_⟩
      refine Option.bind_eq_some_iff.2 ⟨(), hguard, ?_⟩
      dsimp only
      rw [hsum]
      rfl
  · next heq => cases heq

/-- The characters of an offset that is not zero. -/
theorem toList_offsetText {offset : Int} (h : offset ≠ 0) :
    (offsetText offset).toList = (if offset < 0 then '-' else '+') ::
      (paddedChars 2 (offset.natAbs / 60) ++ ':' :: paddedChars 2 (offset.natAbs % 60)) := by
  by_cases hneg : offset < 0 <;> simp [offsetText, padded, h, hneg]

/-- An offset is read back, whatever its sign is. -/
theorem offset?_offsetText {offset : Int} (h : offset.natAbs < 24 * 60) :
    offset? (offsetText offset).toList = some offset := by
  by_cases hzero : offset = 0
  · subst hzero
    rfl
  · rw [toList_offsetText hzero]
    by_cases hneg : offset < 0
    · rw [if_pos hneg, offset?_sign (.inl ⟨rfl, rfl⟩) h]
      simp only [if_true, Option.some.injEq]
      omega
    · rw [if_neg hneg, offset?_sign (.inr ⟨rfl, rfl⟩) h]
      simp only [Bool.false_eq_true, if_false, Option.some.injEq]
      omega

/-- What may follow a fraction is an offset. -/
theorem endsFraction_offsetText (offset : Int) : EndsFraction (offsetText offset).toList := by
  intro c hc
  by_cases hzero : offset = 0
  · subst hzero
    obtain rfl : 'Z' = c := Option.some.inj hc
    decide
  · rw [toList_offsetText hzero] at hc
    obtain rfl := Option.some.inj hc
    split <;> decide

/-! ## All parts -/

theorem daysInMonth_le (year month : Nat) : daysInMonth year month ≤ 31 := by
  unfold daysInMonth
  split
  · split <;> decide
  · split <;> decide

/-- The characters of a timestamp. -/
theorem toList_text (t : Timestamp) :
    t.text.toList = paddedChars 4 t.year ++ '-' :: (paddedChars 2 t.month ++ '-' ::
      (paddedChars 2 t.day ++ 'T' :: (paddedChars 2 t.hour ++ ':' ::
        (paddedChars 2 t.minute ++ ':' :: (paddedChars 2 t.second ++
          ((fractionText t.nanosecond).toList ++ (offsetText t.offset).toList)))))) := by
  simp [text, padded]

/-- A timestamp is read as it was written. -/
theorem parse?_text (t : Timestamp) : parse? t.text = some t := by
  obtain ⟨hyear, ⟨-, hmonth⟩, ⟨-, hday⟩, hhour, hminute, hsecond, hnano, hoffset⟩ := t.valid
  have hday' := Nat.le_trans hday (daysInMonth_le t.year t.month)
  have hends := endsFraction_offsetText t.offset
  -- Only a leap second is read as something else than it says, and no timestamp has one.
  have hleap : ¬(t.second == 60) = true := by
    simp only [beq_iff_eq]
    omega
  have hparts : ofParts? t.year t.month t.day t.hour t.minute t.second t.nanosecond t.offset =
      some t := dif_pos t.valid
  have hchar : ∀ c cs, char? c (c :: cs) = some cs := fun c cs => by simp [char?]
  show ofChars? t.text.toList = some t
  rw [toList_text]
  refine Option.bind_eq_some_iff.2 ⟨_, digits?_paddedChars (by omega) _, ?_⟩
  refine Option.bind_eq_some_iff.2 ⟨_, hchar '-' _, ?_⟩
  refine Option.bind_eq_some_iff.2 ⟨_, digits?_two t.month (by omega) _, ?_⟩
  refine Option.bind_eq_some_iff.2 ⟨_, hchar '-' _, ?_⟩
  refine Option.bind_eq_some_iff.2 ⟨_, digits?_two t.day (by omega) _, ?_⟩
  refine Option.bind_eq_some_iff.2 ⟨'T', rfl, ?_⟩
  refine Option.bind_eq_some_iff.2 ⟨(), rfl, ?_⟩
  refine Option.bind_eq_some_iff.2 ⟨_, digits?_two t.hour (by omega) _, ?_⟩
  refine Option.bind_eq_some_iff.2 ⟨_, hchar ':' _, ?_⟩
  refine Option.bind_eq_some_iff.2 ⟨_, digits?_two t.minute (by omega) _, ?_⟩
  refine Option.bind_eq_some_iff.2 ⟨_, hchar ':' _, ?_⟩
  refine Option.bind_eq_some_iff.2 ⟨_, digits?_two t.second (by omega) _, ?_⟩
  refine Option.bind_eq_some_iff.2 ⟨_, fraction?_fractionText hnano hends, ?_⟩
  refine Option.bind_eq_some_iff.2 ⟨_, offset?_offsetText hoffset, ?_⟩
  exact (if_neg hleap).trans hparts

end ParseAudit.Timestamp
