/-!
# Blank characters and trimming

A character is *blank* when it has the Unicode property `White_Space`.  Trimming removes the blank
characters at the ends of a text.  Two facts pin it down: `trim_eq_nil_iff` says which texts vanish
altogether, and `trimEnd_append_blank` says that blanks added at the end change nothing.
-/

namespace ParseAudit

/-- The characters with the Unicode property `White_Space`. -/
def isBlank (c : Char) : Bool :=
  let n := c.toNat
  (0x09 ≤ n && n ≤ 0x0D) || n == 0x20 || n == 0x85 || n == 0xA0 || n == 0x1680 ||
    (0x2000 ≤ n && n ≤ 0x200A) || n == 0x2028 || n == 0x2029 || n == 0x202F || n == 0x205F ||
    n == 0x3000

namespace Chars

/-- Drops the blanks at the start. -/
def trimStart (s : List Char) : List Char :=
  s.dropWhile isBlank

/-- Drops the blanks at the end. -/
def trimEnd : List Char → List Char
  | [] => []
  | c :: cs =>
    match trimEnd cs with
    | [] => if isBlank c then [] else [c]
    | d :: ds => c :: d :: ds

/-- Drops the blanks at both ends. -/
def trim (s : List Char) : List Char :=
  trimEnd (trimStart s)

/-- A text of blanks only. -/
def AllBlank (s : List Char) : Prop := ∀ c ∈ s, isBlank c = true

instance (s : List Char) : Decidable (AllBlank s) :=
  decidable_of_iff (s.all isBlank = true) List.all_eq_true

theorem trimEnd_eq_nil_iff {s : List Char} : trimEnd s = [] ↔ AllBlank s := by
  induction s with
  | nil => simp [trimEnd, AllBlank]
  | cons c cs ih =>
    simp only [AllBlank, List.mem_cons, forall_eq_or_imp] at ih ⊢
    cases h : trimEnd cs with
    | nil => simp [trimEnd, h, ← ih]
    | cons d ds => simp [trimEnd, h, ← ih]

theorem trimStart_eq_nil_iff {s : List Char} : trimStart s = [] ↔ AllBlank s := by
  induction s with
  | nil => simp [trimStart, AllBlank]
  | cons c cs ih =>
    simp only [trimStart, AllBlank, List.mem_cons, forall_eq_or_imp] at ih ⊢
    cases hc : isBlank c <;> simp_all

/-- A text vanishes when trimmed exactly when it is blank throughout. -/
theorem trim_eq_nil_iff {s : List Char} : trim s = [] ↔ AllBlank s := by
  constructor
  · intro h
    rw [trim, trimEnd_eq_nil_iff] at h
    induction s with
    | nil => simp [AllBlank]
    | cons c cs ih =>
      cases hc : isBlank c with
      | true =>
        have h' : AllBlank (trimStart cs) := by simpa [trimStart, hc] using h
        intro d hd
        rcases List.mem_cons.1 hd with rfl | hd
        · exact hc
        · exact ih h' d hd
      | false =>
        have := h c (by simp [trimStart, hc])
        simp [hc] at this
  · intro h
    simp [trim, trimStart_eq_nil_iff.2 h, trimEnd]

/-- Blanks added at the end of a text disappear when the end is trimmed. -/
theorem trimEnd_append_blank {s b : List Char} (h : AllBlank b) : trimEnd (s ++ b) = trimEnd s := by
  induction s with
  | nil => simpa [trimEnd] using trimEnd_eq_nil_iff.2 h
  | cons c cs ih => simp [trimEnd, ih]

end Chars

namespace Text

/-- Drops the blanks at both ends. -/
def trim (s : String) : String := String.ofList (Chars.trim s.toList)

/-- Drops the blanks at the start. -/
def trimStart (s : String) : String := String.ofList (Chars.trimStart s.toList)

/-- Drops the blanks at the end. -/
def trimEnd (s : String) : String := String.ofList (Chars.trimEnd s.toList)

/-- A text without a character that is not blank. -/
def isBlankText (s : String) : Bool := s.toList.all isBlank

end Text

end ParseAudit
