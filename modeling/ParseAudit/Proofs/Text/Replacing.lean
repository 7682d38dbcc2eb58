import ParseAudit.Text.Lines
/-!
# Replaced texts

Occurrences are replaced from left to right.  In a text whose characters are written each as itself
or as a code of three characters, the first of which marks a code, all occurrences of a code are
whole, so that replacing codes works character by character.

* `replaceAll_append_old`, `replaceAll_cons`: the step at an occurrence and elsewhere;
* `replaceAll_singleton`: one character is replaced wherever it stands;
* `replaceAll_append_singleton`: nothing else is;
* `replaceAll_flatMap`: one code is replaced wherever it was written.
-/

namespace ParseAudit.Chars

variable {old new : List Char}

/-! ## Steps -/

/-- It does not matter how much fuel there is, if it is enough. -/
theorem replaceAll_go_congr (hold : old ≠ []) {fuel fuel' : Nat} {s : List Char}
    (h : s.length ≤ fuel) (h' : s.length ≤ fuel') :
    replaceAll.go old new fuel s = replaceAll.go old new fuel' s := by
  induction fuel generalizing fuel' s with
  | zero =>
    obtain rfl := List.length_eq_zero_iff.1 (Nat.le_zero.1 h)
    cases fuel' <;> rfl
  | succ fuel ih =>
    cases s with
    | nil => cases fuel' <;> rfl
    | cons c cs =>
      cases fuel' with
      | zero => exact absurd h' (Nat.not_succ_le_zero _)
      | succ fuel' =>
        have hpos : 0 < old.length := List.length_pos_iff.2 hold
        simp only [List.length_cons] at h h'
        have hdrop : ((c :: cs).drop old.length).length ≤ cs.length := by
          rw [List.length_drop, List.length_cons]
          omega
        unfold replaceAll.go
        -- It goes on behind an occurrence or behind one character; both are shorter.
        have hskip : replaceAll.go old new fuel ((c :: cs).drop old.length) =
            replaceAll.go old new fuel' ((c :: cs).drop old.length) := ih (by omega) (by omega)
        have hnext : replaceAll.go old new fuel cs = replaceAll.go old new fuel' cs :=
          ih (by omega) (by omega)
        rw [hskip, hnext]

theorem replaceAll_eq_go (hold : old ≠ []) {fuel : Nat} {s : List Char} (h : s.length ≤ fuel) :
    replaceAll old new s = replaceAll.go old new fuel s := by
  rw [replaceAll, if_neg hold]
  exact replaceAll_go_congr hold (Nat.le_refl _) h

@[simp] theorem replaceAll_nil (old new : List Char) : replaceAll old new [] = [] := by
  unfold replaceAll
  split <;> rfl

/-- An occurrence at the start is replaced. -/
theorem replaceAll_append_old (hold : old ≠ []) (s : List Char) :
    replaceAll old new (old ++ s) = new ++ replaceAll old new s := by
  obtain ⟨c, cs, rfl⟩ := List.exists_cons_of_ne_nil hold
  have hprefix : (c :: cs).isPrefixOf (c :: (cs ++ s)) = true :=
    List.isPrefixOf_iff_prefix.2 (List.prefix_append (c :: cs) s)
  have hrest : replaceAll (c :: cs) new s = replaceAll.go (c :: cs) new (cs ++ s).length s :=
    replaceAll_eq_go hold (by simp)
  rw [replaceAll_eq_go hold (Nat.le_refl _), List.cons_append, List.length_cons, replaceAll.go,
    if_pos hprefix, ← List.cons_append, List.drop_left, hrest]

/-- Where no occurrence begins, the character stays. -/
theorem replaceAll_cons {c : Char} {s : List Char} (h : ¬old <+: c :: s) :
    replaceAll old new (c :: s) = c :: replaceAll old new s := by
  have hold : old ≠ [] := by
    rintro rfl
    exact h List.nil_prefix
  rw [replaceAll_eq_go hold (Nat.le_refl _), List.length_cons, replaceAll.go,
    if_neg (mt List.isPrefixOf_iff_prefix.1 h), ← replaceAll_eq_go hold (Nat.le_refl _)]

theorem replaceAll_cons_of_ne {c d : Char} (h : c ≠ d) (s : List Char) :
    replaceAll (c :: old) new (d :: s) = d :: replaceAll (c :: old) new s :=
  replaceAll_cons fun hprefix => h (List.cons_prefix_cons.1 hprefix).1

/-! ## Single characters -/

/-- A single character is replaced wherever it stands. -/
theorem replaceAll_singleton (c : Char) (new s : List Char) :
    replaceAll [c] new s = s.flatMap fun d => if d = c then new else [d] := by
  induction s with
  | nil => rw [replaceAll_nil]; rfl
  | cons d ds ih =>
    rw [List.flatMap_cons, ← ih]
    by_cases h : d = c
    · subst h
      rw [if_pos rfl]
      exact replaceAll_append_old (List.cons_ne_nil d []) ds
    · rw [if_neg h]
      exact replaceAll_cons_of_ne (Ne.symm h) ds

/-- A character that does not occur is replaced nowhere. -/
theorem replaceAll_of_not_mem {c : Char} {s : List Char} (h : c ∉ s) (new : List Char) :
    replaceAll [c] new s = s := by
  induction s with
  | nil => exact replaceAll_nil _ _
  | cons d ds ih =>
    rw [List.mem_cons, not_or] at h
    rw [replaceAll_cons_of_ne h.1, ih h.2]

/-- Up to the first occurrence of a character nothing is replaced. -/
theorem replaceAll_append_singleton {c : Char} {s : List Char} (h : c ∉ s) (new rest : List Char) :
    replaceAll [c] new (s ++ c :: rest) = s ++ new ++ replaceAll [c] new rest := by
  have hrest : replaceAll [c] new (c :: rest) = new ++ replaceAll [c] new rest :=
    replaceAll_append_old (List.cons_ne_nil c []) rest
  have hs : replaceAll [c] new s = s := replaceAll_of_not_mem h new
  rw [replaceAll_singleton] at hs hrest ⊢
  rw [List.flatMap_append, hs, hrest, replaceAll_singleton, List.append_assoc]

/-! ## Codes -/

/-- A way of writing characters: each as one character that is not the mark, or as the mark and two
more characters that are not. -/
def IsCoding (mark : Char) (f : Char → List Char) : Prop :=
  ∀ c, (∃ d, d ≠ mark ∧ f c = [d]) ∨ ∃ x y, x ≠ mark ∧ y ≠ mark ∧ f c = [mark, x, y]

/-- A way of writing characters that writes one thing as another. -/
def rewriting (f : Char → List Char) (old new : List Char) (c : Char) : List Char :=
  if f c = old then new else f c

/-- A code is replaced wherever a character was written so. -/
theorem replaceAll_flatMap {mark a b : Char} {f : Char → List Char} (hf : IsCoding mark f)
    (new s : List Char) :
    replaceAll [mark, a, b] new (s.flatMap f) = s.flatMap (rewriting f [mark, a, b] new) := by
  induction s with
  | nil => exact replaceAll_nil _ _
  | cons c cs ih =>
    rw [List.flatMap_cons, List.flatMap_cons, ← ih, rewriting]
    rcases hf c with ⟨d, hd, hc⟩ | ⟨x, y, hx, hy, hc⟩
    · rw [hc, if_neg (by simp)]
      exact replaceAll_cons_of_ne (Ne.symm hd) _
    · rw [hc]
      split
      · next hcode =>
        rw [hcode]
        exact replaceAll_append_old (List.cons_ne_nil _ _) _
      · next hcode =>
        -- Another code: no occurrence begins at its mark, and none at the two characters after it.
        have hprefix : ¬[mark, a, b] <+: mark :: x :: y :: cs.flatMap f := by
          simp only [List.cons_prefix_cons, List.nil_prefix, and_true, true_and]
          rintro ⟨rfl, rfl⟩
          exact hcode rfl
        rw [List.cons_append, List.cons_append, List.cons_append, List.nil_append,
          replaceAll_cons hprefix, replaceAll_cons_of_ne (Ne.symm hx),
          replaceAll_cons_of_ne (Ne.symm hy)]
        rfl

theorem replaceAll_coding {mark a b : Char} {f : Char → List Char} (hf : IsCoding mark f)
    (new : List Char) (c : Char) :
    replaceAll [mark, a, b] new (f c) = rewriting f [mark, a, b] new c := by
  simpa only [List.flatMap_singleton] using replaceAll_flatMap hf new [c]

/-- A code may be replaced by any character but the mark. -/
theorem IsCoding.rewriting {mark a b d : Char} {f : Char → List Char} (hf : IsCoding mark f)
    (hd : d ≠ mark) : IsCoding mark (rewriting f [mark, a, b] [d]) := by
  intro c
  unfold Chars.rewriting
  split
  · exact .inl ⟨d, hd, rfl⟩
  · exact hf c

end ParseAudit.Chars
