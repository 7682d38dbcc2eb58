import ParseAudit.Text.Natural
import Mathlib.Algebra.Group.Nat.Defs
/-!
# Decimal numerals

A numeral is one or more ASCII digits, perhaps after one `+`.

* `natural?_eq_some_iff`: exactly the numerals are read, each as the number that its digits denote;
* `numeral_toDigits`: the digits that a number is written with are a numeral for it;
* `ofDigitChars_paddedChars`: the digits of a fixed width that a number is written with.
-/

namespace ParseAudit.Chars

/-- A text that is digits, perhaps after one `+`, and denotes a number. -/
def IsNumeral (s : List Char) (n : Nat) : Prop :=
  ∃ digits : List Char, digits ≠ [] ∧ (∀ c ∈ digits, c.isDigit = true) ∧
    (s = digits ∨ s = '+' :: digits) ∧ Nat.ofDigitChars 10 digits 0 = n

theorem digitValue?_eq (c : Char) :
    digitValue? c = if c.isDigit then some (c.toNat - '0'.toNat) else none := by
  unfold digitValue?
  have h : ('0' ≤ c ∧ c ≤ '9') ↔ c.isDigit = true := by
    simp only [Char.isDigit, Bool.and_eq_true, decide_eq_true_eq, ge_iff_le]
    exact Iff.rfl
  by_cases hc : c.isDigit
  · rw [if_pos (h.2 hc), if_pos hc]
  · rw [if_neg (fun hd => hc (h.1 hd)), if_neg hc]

/-- Digits are read as the number that they denote, and nothing else is read. -/
theorem digitsValue?_eq_some_iff {s : List Char} {acc n : Nat} :
    digitsValue? acc s = some n ↔
      (∀ c ∈ s, c.isDigit = true) ∧ Nat.ofDigitChars 10 s acc = n := by
  induction s generalizing acc with
  | nil => simp [digitsValue?]
  | cons c cs ih =>
    unfold digitsValue?
    rw [digitValue?_eq]
    by_cases hc : c.isDigit
    · rw [if_pos hc, Option.bind_some, ih, Nat.ofDigitChars_cons, Nat.mul_comm acc 10]
      simp [hc]
    · rw [if_neg hc, Option.bind_none]
      constructor
      · intro h
        cases h
      · rintro ⟨hall, -⟩
        exact absurd (hall c List.mem_cons_self) hc

theorem natural?_plus {cs : List Char} (h : cs ≠ []) :
    natural? ('+' :: cs) = digitsValue? 0 cs := by
  cases cs with
  | nil => exact absurd rfl h
  | cons c cs => rfl

theorem natural?_digits {s : List Char} (h : s ≠ []) (hplus : s.head? ≠ some '+') :
    natural? s = digitsValue? 0 s := by
  unfold natural?
  split
  · exact absurd rfl hplus
  · exact absurd rfl hplus
  · exact absurd rfl h
  · rfl

/-- Exactly the numerals are read. -/
theorem natural?_eq_some_iff {s : List Char} {n : Nat} : natural? s = some n ↔ IsNumeral s n := by
  constructor
  · intro h
    by_cases hplus : s.head? = some '+'
    · obtain ⟨cs, rfl⟩ := List.head?_eq_some_iff.1 hplus
      have hne : cs ≠ [] := by
        rintro rfl
        cases h
      rw [natural?_plus hne] at h
      obtain ⟨hall, hval⟩ := digitsValue?_eq_some_iff.1 h
      exact ⟨cs, hne, hall, .inr rfl, hval⟩
    · have hne : s ≠ [] := by
        rintro rfl
        cases h
      rw [natural?_digits hne hplus] at h
      obtain ⟨hall, hval⟩ := digitsValue?_eq_some_iff.1 h
      exact ⟨s, hne, hall, .inl rfl, hval⟩
  · rintro ⟨digits, hne, hall, rfl | rfl, hval⟩
    · have hplus : s.head? ≠ some '+' := by
        intro hp
        have hd := hall '+' (List.mem_of_mem_head? hp)
        revert hd
        decide
      rw [natural?_digits hne hplus]
      exact digitsValue?_eq_some_iff.2 ⟨hall, hval⟩
    · rw [natural?_plus hne]
      exact digitsValue?_eq_some_iff.2 ⟨hall, hval⟩

theorem naturalBelow?_eq_some_iff {bound n : Nat} {s : List Char} :
    naturalBelow? bound s = some n ↔ IsNumeral s n ∧ n < bound := by
  unfold naturalBelow?
  rw [Option.filter_eq_some_iff, natural?_eq_some_iff, decide_eq_true_iff]

/-- A numeral holds digits and `+` only. -/
theorem IsNumeral.mem {s : List Char} {n : Nat} (h : IsNumeral s n) {c : Char} (hc : c ∈ s) :
    c.isDigit = true ∨ c = '+' := by
  obtain ⟨digits, -, hall, rfl | rfl, -⟩ := h
  · exact .inl (hall c hc)
  · rcases List.mem_cons.1 hc with rfl | hc
    · exact .inr rfl
    · exact .inl (hall c hc)

/-- The digits that a number is written with denote it. -/
theorem numeral_toDigits (n : Nat) : IsNumeral (Nat.toDigits 10 n) n := by
  refine ⟨Nat.toDigits 10 n, Nat.toDigits_ne_nil, ?_, .inl rfl, Nat.ofDigitChars_ten_toDigits⟩
  intro c hc
  exact Nat.isDigit_of_mem_toDigits (by decide) (by decide) hc

/-! ## Fixed widths -/

open Text (paddedChars)

@[simp] theorem length_paddedChars (width n : Nat) : (paddedChars width n).length = width := by
  induction width generalizing n with
  | zero => rfl
  | succ width ih => rw [paddedChars, List.length_append, ih]; rfl

theorem isDigit_of_mem_paddedChars {width n : Nat} {c : Char} (h : c ∈ paddedChars width n) :
    c.isDigit = true := by
  induction width generalizing n with
  | zero => cases h
  | succ width ih =>
    rcases List.mem_append.1 h with h | h
    · exact ih h
    · have hall : ∀ k < 10, (Nat.digitChar k).isDigit = true := by decide
      rw [List.mem_singleton.1 h]
      exact hall _ (Nat.mod_lt n (by decide))

/-- The low digits of a number denote what it leaves behind when the others are cut off. -/
theorem ofDigitChars_paddedChars (width n acc : Nat) :
    Nat.ofDigitChars 10 (paddedChars width n) acc = acc * 10 ^ width + n % 10 ^ width := by
  induction width generalizing n with
  | zero =>
    rw [paddedChars, Nat.ofDigitChars_nil]
    omega
  | succ width ih =>
    have hdigit : ∀ k < 10, (Nat.digitChar k).toNat - '0'.toNat = k := by decide
    have hsplit : n % 10 ^ (width + 1) = n % 10 + 10 * (n / 10 % 10 ^ width) := by
      rw [Nat.pow_succ, Nat.mul_comm, Nat.mod_mul]
    rw [paddedChars, Nat.ofDigitChars_append, ih, Nat.ofDigitChars_cons, Nat.ofDigitChars_nil,
      hdigit _ (Nat.mod_lt n (by decide)), hsplit, Nat.pow_succ, Nat.mul_add, ← Nat.mul_assoc,
      Nat.mul_comm 10 acc, Nat.mul_right_comm acc 10, Nat.mul_assoc acc]
    omega

end ParseAudit.Chars
