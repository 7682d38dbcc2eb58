import ParseAudit.Json.Reader
import ParseAudit.Json.Writer
import ParseAudit.Proofs.Text.Numeral
/-!
# Tokens of JSON are read back

Numbers and texts are read as they were written, in front of whatever may follow them.

* `number?_text`: a number that is no floating-point number, in front of anything that does not go
  on with it;
* `text?_flatMap_escapeChar`: a text, whatever its characters are.
-/

namespace ParseAudit.Json.Reader

/-! ## Numbers -/

/-- Whether a character would be read as part of the number in front of it. -/
def goesOn (c : Char) : Bool := c.isDigit || c == '.' || c == 'e' || c == 'E'

/-- A text that does not go on with a number in front of it. -/
def EndsNumber (rest : List Char) : Prop := ∀ c ∈ rest.head?, goesOn c = false

theorem le_ofDigitChars (ds : List Char) (acc : Nat) : acc ≤ Nat.ofDigitChars 10 ds acc := by
  induction ds generalizing acc with
  | nil => exact Nat.le_refl acc
  | cons d ds ih =>
    rw [Nat.ofDigitChars_cons]
    exact Nat.le_trans (by omega) (ih _)

/-- Digits are all read if the number that they denote fits. -/
theorem wholeDigits_append {ds rest : List Char} {acc : Nat} (hdigits : ∀ c ∈ ds, c.isDigit = true)
    (hrest : EndsNumber rest) (hfits : Nat.ofDigitChars 10 ds acc < UInt64.size) :
    wholeDigits acc (ds ++ rest) = (Nat.ofDigitChars 10 ds acc, rest) := by
  induction ds generalizing acc with
  | nil =>
    cases rest with
    | nil => rfl
    | cons c cs =>
      have hc : c.isDigit = false := by
        have hgoesOn := hrest c rfl
        simp only [goesOn, Bool.or_eq_false_iff] at hgoesOn
        exact hgoesOn.1.1.1
      rw [List.nil_append, wholeDigits, Chars.digitValue?_eq, hc]
      rfl
  | cons d ds ih =>
    have hd := hdigits d List.mem_cons_self
    rw [Nat.ofDigitChars_cons, Nat.mul_comm] at hfits
    -- A part of a number is no larger than the number, so it fits as well.
    have hfirst : digitFits acc (d.toNat - '0'.toNat) = true :=
      decide_eq_true (Nat.lt_of_le_of_lt (le_ofDigitChars ds _) hfits)
    have hmore := ih (fun c hc => hdigits c (List.mem_cons_of_mem d hc)) hfits
    rw [List.cons_append, wholeDigits, Chars.digitValue?_eq, if_pos hd]
    simp only [hfirst, if_true]
    rw [hmore, Nat.ofDigitChars_cons, Nat.mul_comm 10]

/-- Only zero is written with a zero in front. -/
theorem toDigits_zero_cons {n : Nat} {ds : List Char} (h : Nat.toDigits 10 n = '0' :: ds) :
    n = 0 ∧ ds = [] := by
  induction n using Nat.strongRecOn generalizing ds with
  | ind n ih =>
    by_cases hn : n < 10
    · rw [Nat.toDigits_of_lt_base hn] at h
      injection h with hchar hds
      refine ⟨?_, hds.symm⟩
      have hzero : ∀ k < 10, Nat.digitChar k = '0' → k = 0 := by decide
      exact hzero n hn hchar
    · have hten : 10 ≤ n := Nat.le_of_not_lt hn
      rw [Nat.toDigits_of_base_le (by decide) hten] at h
      cases hd : Nat.toDigits 10 (n / 10) with
      | nil => exact absurd hd Nat.toDigits_ne_nil
      | cons c cs =>
        rw [hd, List.cons_append] at h
        injection h with hc hcs
        subst hc
        have hzero := (ih (n / 10) (by omega) hd).1
        omega

/-- The digits of a number that fits are read as that number, with the sign that was read. -/
theorem magnitude?_toDigits {n : Nat} (hfits : n < UInt64.size) (negative : Bool)
    {rest : List Char} (hrest : EndsNumber rest) :
    magnitude? negative (Nat.toDigits 10 n ++ rest) = whole? negative n rest := by
  have hdigits : ∀ c ∈ Nat.toDigits 10 n, c.isDigit = true :=
    fun c hc => Nat.isDigit_of_mem_toDigits (by decide) (by decide) hc
  have hvalue : Nat.ofDigitChars 10 (Nat.toDigits 10 n) 0 = n := Nat.ofDigitChars_ten_toDigits
  cases hds : Nat.toDigits 10 n with
  | nil => exact absurd hds Nat.toDigits_ne_nil
  | cons c cs =>
    have hc : c.isDigit = true := hdigits c (hds ▸ List.mem_cons_self)
    have hread : (if c == '0' then (0, cs ++ rest) else wholeDigits 0 (c :: (cs ++ rest))) =
        (n, rest) := by
      by_cases hzero : c = '0'
      · subst hzero
        obtain ⟨rfl, rfl⟩ := toDigits_zero_cons hds
        rfl
      · have hall := wholeDigits_append hdigits hrest (hvalue.symm ▸ hfits)
        rw [hvalue, hds] at hall
        rw [if_neg (by simpa using hzero)]
        exact hall
    have hstart : (digitValue? c).isNone = false := by
      rw [Chars.digitValue?_eq, if_pos hc]
      rfl
    rw [List.cons_append, magnitude?]
    simp only [hstart, Bool.false_eq_true, if_false, hread]
    cases rest with
    | nil => rfl
    | cons d ds =>
      have hgoesOn := hrest d rfl
      simp only [goesOn, Bool.or_eq_false_iff] at hgoesOn
      obtain ⟨⟨⟨hdigit, hpoint⟩, he⟩, hE⟩ := hgoesOn
      have hnone : (digitValue? d).isSome = false := by
        rw [Chars.digitValue?_eq, hdigit]
        rfl
      simp only [hpoint, he, hE, hnone, Bool.or_false, Bool.false_eq_true, if_false]

/-- A number that is no floating-point number is read as it was written. -/
theorem number?_text {n : JsonNumber} (hreal : ∀ x, n ≠ .real x) {rest : List Char}
    (hrest : EndsNumber rest) : number? (n.text.toList ++ rest) = some (n, rest) := by
  cases n with
  | natural n hn =>
    have hdigits : (JsonNumber.natural n hn).text.toList = Nat.toDigits 10 n := by
      rw [JsonNumber.text, Text.natural, String.toList_ofList]
    rw [hdigits]
    have hread : magnitude? false (Nat.toDigits 10 n ++ rest) = some (.natural n hn, rest) := by
      rw [magnitude?_toDigits hn false hrest]
      exact dif_pos hn
    unfold number?
    split
    -- No digit is the sign.
    · next cs heq =>
      cases hds : Nat.toDigits 10 n with
      | nil => exact absurd hds Nat.toDigits_ne_nil
      | cons c ds =>
        rw [hds, List.cons_append] at heq
        injection heq with hc
        have hdigit := Nat.isDigit_of_mem_toDigits (b := 10) (n := n) (by decide) (by decide)
          (hds ▸ List.mem_cons_self)
        rw [hc] at hdigit
        exact absurd hdigit (by decide)
    · exact hread
  | negative n hn =>
    have hdigits : (JsonNumber.negative n hn).text.toList = '-' :: Nat.toDigits 10 n := by
      rw [JsonNumber.text, Text.natural, String.toList_append, String.toList_ofList]
      simp
    have hfits : n < UInt64.size := by omega
    rw [hdigits, List.cons_append, number?, magnitude?_toDigits hfits true hrest]
    exact dif_pos hn
  | real x => exact absurd rfl (hreal x)

/-! ## Texts -/

theorem hexValue?_hexDigit (n : Nat) : hexValue? (hexDigit n) = some (n % 16) := by
  have hall : ∀ k < 16, hexValue? (Nat.digitChar k) = some k := by decide
  exact hall _ (Nat.mod_lt n (by decide))

/-- The escape by code unit of a control character is read as that character. -/
theorem unicode?_control {c : Char} (h : c.toNat < 0x20) (rest : List Char) :
    unicode? ('0' :: '0' :: hexDigit (c.toNat / 16) :: hexDigit c.toNat :: rest) =
      some (c, rest) := by
  have hzero : hexValue? '0' = some 0 := by decide
  have hunit : hex4? ('0' :: '0' :: hexDigit (c.toNat / 16) :: hexDigit c.toNat :: rest) =
      some (c.toNat, rest) := by
    simp only [hex4?, hzero, hexValue?_hexDigit, Option.bind_eq_bind, Option.bind_some]
    simp only [Option.pure_def, Option.some.injEq, Prod.mk.injEq, and_true]
    omega
  simp only [unicode?, hunit, Option.bind_eq_bind, Option.bind_some]
  rw [if_neg (by omega), if_neg (by omega), Char.ofNat_toNat]

theorem text?_quote (rest : List Char) : text? ('"' :: rest) = some ([], rest) := by
  rw [text?.eq_def]
  rfl

theorem text?_short {e c : Char} (h : shortEscape? e = some c) (rest : List Char) :
    text? ('\\' :: e :: rest) = (text? rest).map fun (cs, rest) => (c :: cs, rest) := by
  have hu : e ≠ 'u' := by
    have hnone : shortEscape? 'u' = none := by decide
    rintro rfl
    rw [hnone] at h
    cases h
  rw [text?.eq_def]
  dsimp only
  rw [if_neg (by decide), if_pos (by decide)]
  split
  · next heq => cases heq
  · next heq =>
    injection heq with he
    exact absurd he hu
  · next heq =>
    injection heq with he hrest
    subst he hrest
    rw [h]
    rfl

theorem text?_unicode {digits rest : List Char} {c : Char} (h : unicode? digits = some (c, rest)) :
    text? ('\\' :: 'u' :: digits) = (text? rest).map fun (cs, rest) => (c :: cs, rest) := by
  rw [text?.eq_def]
  dsimp only
  rw [if_neg (by decide), if_pos (by decide)]
  split
  · next heq => cases heq
  · next heq =>
    injection heq with _ hdigits
    subst hdigits
    split
    · next hread =>
      rw [h] at hread
      cases hread
      rfl
    · next hnone =>
      rw [h] at hnone
      cases hnone
  · next hu heq =>
    injection heq with he
    exact absurd he.symm hu

theorem text?_plain {c : Char} (hquote : c ≠ '"') (hslash : c ≠ '\\') (hcontrol : ¬c.toNat < 0x20)
    (rest : List Char) :
    text? (c :: rest) = (text? rest).map fun (cs, rest) => (c :: cs, rest) := by
  rw [text?.eq_def]
  simp [hquote, hslash, hcontrol]

/-- A character is written as a short escape, as an escape by code unit, or as it is. -/
theorem escapeChar_cases (c : Char) :
    (∃ e, escapeChar c = ['\\', e] ∧ shortEscape? e = some c) ∨
      (c.toNat < 0x20 ∧ escapeChar c =
        ['\\', 'u', '0', '0', hexDigit (c.toNat / 16), hexDigit c.toNat]) ∨
      (c ≠ '"' ∧ c ≠ '\\' ∧ ¬c.toNat < 0x20 ∧ escapeChar c = [c]) := by
  by_cases hshort : c ∈ ['"', '\\', '\n', '\r', '\t', '\x08', '\x0c']
  · have hall : ∀ c ∈ ['"', '\\', '\n', '\r', '\t', '\x08', '\x0c'],
        ∃ e, escapeChar c = ['\\', e] ∧ shortEscape? e = some c := by
      simp only [List.forall_mem_cons]
      exact ⟨⟨'"', by decide⟩, ⟨'\\', by decide⟩, ⟨'n', by decide⟩, ⟨'r', by decide⟩,
        ⟨'t', by decide⟩, ⟨'b', by decide⟩, ⟨'f', by decide⟩, nofun⟩
    exact .inl (hall c hshort)
  · simp only [List.mem_cons, List.not_mem_nil, or_false, not_or] at hshort
    by_cases hcontrol : c.toNat < 0x20
    · exact .inr (.inl ⟨hcontrol, by simp [escapeChar, hshort, hcontrol]⟩)
    · exact .inr (.inr ⟨hshort.1, hshort.2.1, hcontrol, by simp [escapeChar, hshort, hcontrol]⟩)

/-- One character is read as it was written. -/
theorem text?_escapeChar (c : Char) (rest : List Char) :
    text? (escapeChar c ++ rest) = (text? rest).map fun (cs, rest) => (c :: cs, rest) := by
  rcases escapeChar_cases c with ⟨e, hc, he⟩ | ⟨hcontrol, hc⟩ | ⟨hquote, hslash, hcontrol, hc⟩
  · rw [hc]
    exact text?_short he rest
  · rw [hc]
    exact text?_unicode (unicode?_control hcontrol rest)
  · rw [hc]
    exact text?_plain hquote hslash hcontrol rest

/-- A text is read up to its closing quote. -/
theorem text?_flatMap_escapeChar (s rest : List Char) :
    text? (s.flatMap escapeChar ++ '"' :: rest) = some (s, rest) := by
  induction s with
  | nil => exact text?_quote rest
  | cons c cs ih =>
    rw [List.flatMap_cons, List.append_assoc, text?_escapeChar, ih]
    rfl

end ParseAudit.Json.Reader
