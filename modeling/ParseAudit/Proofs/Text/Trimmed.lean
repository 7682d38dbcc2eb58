import ParseAudit.Text.Blank
import Mathlib.Data.List.TakeWhile
/-!
# Trimmed texts

Trimming cuts a text into blanks, a trimmed text and blanks again, and there is only one such cut.

* `exists_trim` and `trimmed_trim`: the cut exists, and its middle is trimmed;
* `trim_eq_iff`: whatever is trimmed and stands between blanks is what trimming gives.
-/

namespace ParseAudit.Chars

/-- A text with no blank at either end. -/
structure Trimmed (s : List Char) : Prop where
  head : ∀ c ∈ s.head?, isBlank c = false
  last : ∀ c ∈ s.getLast?, isBlank c = false

theorem trimmed_iff {s : List Char} :
    Trimmed s ↔ s.head?.any isBlank = false ∧ s.getLast?.any isBlank = false := by
  rw [Option.any_eq_false, Option.any_eq_false]
  exact ⟨fun h => ⟨h.head, h.last⟩, fun h => ⟨h.1, h.2⟩⟩

instance (s : List Char) : Decidable (Trimmed s) := decidable_of_iff' _ trimmed_iff

/-! ## Blank texts -/

theorem allBlank_nil : AllBlank [] := by
  intro c hc
  cases hc

theorem isBlankText_iff {s : String} : Text.isBlankText s = true ↔ AllBlank s.toList :=
  List.all_eq_true

theorem AllBlank.append {a b : List Char} (ha : AllBlank a) (hb : AllBlank b) :
    AllBlank (a ++ b) := by
  intro c hc
  rcases List.mem_append.1 hc with h | h
  · exact ha c h
  · exact hb c h

theorem AllBlank.of_append_left {a b : List Char} (h : AllBlank (a ++ b)) : AllBlank a :=
  fun c hc => h c (List.mem_append_left b hc)

theorem AllBlank.of_append_right {a b : List Char} (h : AllBlank (a ++ b)) : AllBlank b :=
  fun c hc => h c (List.mem_append_right a hc)

/-- A blank text holds no character that is not blank. -/
theorem AllBlank.not_mem {s : List Char} (h : AllBlank s) {c : Char} (hc : isBlank c = false) :
    c ∉ s := by
  intro hmem
  have hblank := h c hmem
  rw [hc] at hblank
  cases hblank

/-- A text that is trimmed and blank is empty. -/
theorem Trimmed.eq_nil_of_allBlank {s : List Char} (hs : Trimmed s) (hb : AllBlank s) : s = [] := by
  cases s with
  | nil => rfl
  | cons c cs =>
    have hc := hs.head c rfl
    exact absurd List.mem_cons_self (hb.not_mem hc)

/-! ## One end at a time -/

theorem exists_trimStart (s : List Char) : ∃ b, AllBlank b ∧ s = b ++ trimStart s := by
  refine ⟨s.takeWhile isBlank, ?_, (List.takeWhile_append_dropWhile).symm⟩
  intro c hc
  exact List.mem_takeWhile_imp hc

theorem exists_trimEnd (s : List Char) : ∃ b, AllBlank b ∧ s = trimEnd s ++ b := by
  induction s with
  | nil => exact ⟨[], allBlank_nil, rfl⟩
  | cons c cs ih =>
    obtain ⟨b, hb, hcs⟩ := ih
    unfold trimEnd
    cases ht : trimEnd cs with
    | cons d ds =>
      rw [ht] at hcs
      exact ⟨b, hb, congrArg (c :: ·) hcs⟩
    | nil =>
      rw [ht, List.nil_append] at hcs
      subst hcs
      by_cases hc : isBlank c
      · refine ⟨c :: cs, ?_, by simp [hc]⟩
        intro d hd
        rcases List.mem_cons.1 hd with rfl | hd
        · exact hc
        · exact hb d hd
      · exact ⟨cs, hb, by simp [hc]⟩

theorem trimStart_append_blank {b s : List Char} (h : AllBlank b) :
    trimStart (b ++ s) = trimStart s := by
  unfold trimStart
  exact List.dropWhile_append_of_pos h

/-- A text whose first character is not blank keeps its start. -/
theorem trimStart_eq_self {s : List Char} (h : ∀ c ∈ s.head?, isBlank c = false) :
    trimStart s = s := by
  cases s with
  | nil => rfl
  | cons c cs => simp [trimStart, h c rfl]

/-- A text whose last character is not blank keeps its end. -/
theorem trimEnd_eq_self {s : List Char} (h : ∀ c ∈ s.getLast?, isBlank c = false) :
    trimEnd s = s := by
  obtain ⟨b, hb, hs⟩ := exists_trimEnd s
  rcases List.eq_nil_or_concat b with rfl | ⟨l, c, rfl⟩
  · simpa using hs.symm
  · have hlast : s.getLast? = some c := by rw [hs]; simp
    have hc := h c hlast
    exact absurd (by simp : c ∈ l.concat c) (hb.not_mem hc)

/-- Trimming the end does not reach behind a character that is not blank. -/
theorem trimEnd_append_cons {c : Char} (hc : isBlank c = false) (s r : List Char) :
    trimEnd (s ++ c :: r) = s ++ c :: trimEnd r := by
  induction s with
  | nil =>
    rw [List.nil_append, List.nil_append, trimEnd]
    cases trimEnd r <;> simp [hc]
  | cons d ds ih =>
    rw [List.cons_append, trimEnd, ih]
    cases ds <;> rfl

theorem head_trimStart (s : List Char) : ∀ c ∈ (trimStart s).head?, isBlank c = false := by
  intro c hc
  have h := List.head?_dropWhile_not isBlank s
  rw [show (s.dropWhile isBlank).head? = some c from hc] at h
  simpa using h

theorem last_trimEnd (s : List Char) : ∀ c ∈ (trimEnd s).getLast?, isBlank c = false := by
  induction s with
  | nil => simp [trimEnd]
  | cons c cs ih =>
    cases ht : trimEnd cs with
    | cons d ds =>
      rw [ht] at ih
      simpa [trimEnd, ht, List.getLast?_cons] using ih
    | nil =>
      by_cases hc : isBlank c
      · simp [trimEnd, ht, hc]
      · simp [trimEnd, ht, hc]

/-- What is left of a text when its end is trimmed starts as the text does. -/
theorem head_trimEnd {s : List Char} (h : ∀ c ∈ s.head?, isBlank c = false) :
    ∀ c ∈ (trimEnd s).head?, isBlank c = false := by
  obtain ⟨b, -, hs⟩ := exists_trimEnd s
  intro c hc
  refine h c ?_
  cases ht : trimEnd s with
  | nil => rw [ht] at hc; cases hc
  | cons d ds =>
    rw [ht] at hc hs
    rw [hs]
    simpa using hc

/-! ## Both ends -/

theorem trimmed_trim (s : List Char) : Trimmed (trim s) :=
  ⟨head_trimEnd (head_trimStart s), last_trimEnd (trimStart s)⟩

/-- A text is blanks, its trimmed form, and blanks. -/
theorem exists_trim (s : List Char) :
    ∃ b b', AllBlank b ∧ AllBlank b' ∧ s = b ++ trim s ++ b' := by
  obtain ⟨b, hb, hs⟩ := exists_trimStart s
  obtain ⟨b', hb', hs'⟩ := exists_trimEnd (trimStart s)
  refine ⟨b, b', hb, hb', ?_⟩
  rw [List.append_assoc]
  calc s = b ++ trimStart s := hs
    _ = b ++ (trim s ++ b') := by rw [trim, ← hs']

/-- Trimming finds the trimmed text between blanks. -/
theorem trim_between {b t b' : List Char} (hb : AllBlank b) (ht : Trimmed t) (hb' : AllBlank b') :
    trim (b ++ t ++ b') = t := by
  rw [trim, List.append_assoc, trimStart_append_blank hb]
  cases t with
  | nil =>
    rw [List.nil_append, trimStart_eq_nil_iff.2 hb']
    rfl
  | cons c cs =>
    have hhead : trimStart (c :: cs ++ b') = c :: cs ++ b' := trimStart_eq_self ht.head
    rw [hhead, trimEnd_append_blank hb', trimEnd_eq_self ht.last]

/-- The trimmed form of a text is the one trimmed text that stands between blanks. -/
theorem trim_eq_iff {s t : List Char} :
    trim s = t ↔ Trimmed t ∧ ∃ b b', AllBlank b ∧ AllBlank b' ∧ s = b ++ t ++ b' := by
  constructor
  · rintro rfl
    exact ⟨trimmed_trim s, exists_trim s⟩
  · rintro ⟨ht, b, b', hb, hb', rfl⟩
    exact trim_between hb ht hb'

theorem Trimmed.trim_eq {s : List Char} (h : Trimmed s) : trim s = s := by
  simpa using trim_between allBlank_nil h allBlank_nil

@[simp] theorem trim_trim (s : List Char) : trim (trim s) = trim s :=
  (trimmed_trim s).trim_eq

theorem trim_append_blank {s b : List Char} (h : AllBlank b) : trim (s ++ b) = trim s := by
  obtain ⟨a, a', ha, ha', hs⟩ := exists_trim s
  refine trim_eq_iff.2 ⟨trimmed_trim s, a, a' ++ b, ha, ha'.append h, ?_⟩
  rw [← List.append_assoc, ← hs]

theorem trim_blank_append {b s : List Char} (h : AllBlank b) : trim (b ++ s) = trim s := by
  rw [trim, trim, trimStart_append_blank h]

/-- Trimming the end first changes nothing. -/
theorem trim_trimEnd (s : List Char) : trim (trimEnd s) = trim s := by
  obtain ⟨b, hb, hs⟩ := exists_trimEnd s
  calc trim (trimEnd s) = trim (trimEnd s ++ b) := (trim_append_blank hb).symm
    _ = trim s := by rw [← hs]

end ParseAudit.Chars
