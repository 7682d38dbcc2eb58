import ParseAudit.Proofs.Line.Record
/-!
# Where a line can be cut

The cuts of a line are listed by a loop over its characters, latest cut first.  They are described
here by what they are: nonempty starts of the trimmed line that end before a gap or at its end.

* `mem_cuts_iff`: the list holds exactly these cuts;
* `isCut_firstToken`: the first token is one of them;
* `pairwise_cuts`: it holds them from the longest start to the shortest.
-/

namespace ParseAudit.Line

open Chars

/-- A cut of a text before a gap or at its end, with something in front of it. -/
structure IsCut (text before after : List Char) : Prop where
  append : before ++ after = text
  ne_nil : before ≠ []
  gap : ∀ c ∈ after.head?, isGap c = true

/-- Only a text that is not empty has a cut. -/
theorem IsCut.text_ne_nil {text before after : List Char} (h : IsCut text before after) :
    text ≠ [] := by
  rw [← h.append]
  exact List.append_ne_nil_of_left_ne_nil h.ne_nil after

/-- Two cuts of a text with starts of one length are the same. -/
theorem IsCut.eq_of_length_eq {text before after before' after' : List Char}
    (h : IsCut text before after) (h' : IsCut text before' after')
    (hlength : before.length = before'.length) : before = before' ∧ after = after' :=
  List.append_inj (h.append.trans h'.append.symm) hlength

/-- What the loop adds to the cuts that were found before: every later place at a gap or at the
end. -/
theorem mem_cutsFrom_iff {s passed : List Char} {found : List Cut} {cut : Cut} :
    cut ∈ cutsFrom passed found s ↔
      cut ∈ found ∨ ∃ mid, cut.passed = mid.reverse ++ passed ∧ mid ++ cut.after = s ∧
        ∀ c ∈ cut.after.head?, isGap c = true := by
  induction s generalizing passed found with
  | nil =>
    unfold cutsFrom
    rw [List.mem_cons, or_comm]
    refine or_congr_right ?_
    constructor
    · rintro rfl
      exact ⟨[], rfl, rfl, by simp⟩
    · rintro ⟨mid, hpassed, hs, -⟩
      obtain ⟨rfl, hafter⟩ := List.append_eq_nil_iff.1 hs
      obtain ⟨p, a⟩ := cut
      simp_all
  | cons c cs ih =>
    unfold cutsFrom
    dsimp only
    rw [ih]
    constructor
    · rintro (h | ⟨mid, hpassed, hs, hgap⟩)
      · split at h
        · next hc =>
          rcases List.mem_cons.1 h with rfl | h
          · refine .inr ⟨[], rfl, rfl, ?_⟩
            intro d hd
            cases hd
            exact hc
          · exact .inl h
        · exact .inl h
      · exact .inr ⟨c :: mid, by simp [hpassed], by simp [hs], hgap⟩
    · rintro (h | ⟨mid, hpassed, hs, hgap⟩)
      · left
        split
        · exact List.mem_cons_of_mem _ h
        · exact h
      · cases mid with
        | nil =>
          left
          rw [List.nil_append] at hs
          have hc : isGap c = true := hgap c (by rw [hs]; rfl)
          rw [if_pos hc]
          obtain ⟨p, a⟩ := cut
          simp_all
        | cons d mid =>
          injection hs with hd hs
          subst hd
          exact .inr ⟨mid, by simp [hpassed], hs, hgap⟩

/-- The loop puts longer starts in front of shorter ones. -/
theorem pairwise_cutsFrom {s passed : List Char} {found : List Cut}
    (hfound : found.Pairwise fun a b => b.passed.length < a.passed.length)
    (hbound : ∀ cut ∈ found, cut.passed.length < passed.length) :
    (cutsFrom passed found s).Pairwise fun a b => b.passed.length < a.passed.length := by
  induction s generalizing passed found with
  | nil => exact List.pairwise_cons.2 ⟨hbound, hfound⟩
  | cons c cs ih =>
    unfold cutsFrom
    dsimp only
    split
    · apply ih
      · exact List.pairwise_cons.2 ⟨hbound, hfound⟩
      · intro cut hcut
        rcases List.mem_cons.1 hcut with rfl | hcut
        · exact Nat.lt_succ_self _
        · exact Nat.lt_succ_of_lt (hbound cut hcut)
    · exact ih hfound fun cut hcut => Nat.lt_succ_of_lt (hbound cut hcut)

/-- A trimmed text has no gap at its start. -/
theorem ne_nil_of_cut {text before after : List Char} (htrim : Trimmed text) (hne : text ≠ [])
    (happ : before ++ after = text) (hgap : ∀ c ∈ after.head?, isGap c = true) : before ≠ [] := by
  rintro rfl
  rw [List.nil_append] at happ
  subst happ
  cases after with
  | nil => exact hne rfl
  | cons c cs =>
    have hblank := htrim.head c rfl
    rw [isBlank_of_isGap (hgap c rfl)] at hblank
    cases hblank

/-- The cuts of a line are the nonempty starts of its trimmed text that end before a gap or at the
end. -/
theorem mem_cuts_iff {line : List Char} {cut : Cut} :
    cut ∈ cuts line ↔ IsCut (trim line) cut.passed.reverse cut.after := by
  unfold cuts
  split
  next htrim =>
    rw [htrim]
    constructor
    · intro h
      cases h
    · rintro ⟨happ, hne, -⟩
      exact absurd (List.append_eq_nil_iff.1 happ).1 hne
  next hne =>
    rw [mem_cutsFrom_iff]
    constructor
    · rintro (h | ⟨mid, hpassed, hs, hgap⟩)
      · cases h
      · have hmid : cut.passed.reverse = mid := by simp [hpassed]
        rw [hmid]
        exact ⟨hs, ne_nil_of_cut (trimmed_trim line) hne hs hgap, hgap⟩
    · intro h
      exact .inr ⟨cut.passed.reverse, by simp, h.append, h.gap⟩

/-- What holds of every cut of a trimmed text can be looked up in the list. -/
theorem forall_isCut_iff {text : List Char} (htrim : Trimmed text) {p : List Char → Prop} :
    (∀ before after, IsCut text before after → p before) ↔
      ∀ cut ∈ cuts text, p cut.passed.reverse := by
  constructor
  · intro h cut hcut
    exact h _ _ (htrim.trim_eq ▸ mem_cuts_iff.1 hcut)
  · intro h before after hcut
    have hmem : (⟨before.reverse, after⟩ : Cut) ∈ cuts text :=
      mem_cuts_iff.2 (by simpa [htrim.trim_eq] using hcut)
    simpa using h _ hmem

/-- The text in front of the first gap, and the text from there on. -/
theorem firstToken_append {token rest : List Char} (htoken : ∀ c ∈ token, isGap c = false)
    (hrest : ∀ c ∈ rest.head?, isGap c = true) :
    (token ++ rest).takeWhile (!isGap ·) = token ∧ (token ++ rest).dropWhile (!isGap ·) = rest := by
  have hall : ∀ c ∈ token, (!isGap c) = true := fun c hc => by rw [htoken c hc]; rfl
  rw [List.takeWhile_append_of_pos hall, List.dropWhile_append_of_pos hall]
  cases rest with
  | nil => simp
  | cons c cs => simp [hrest c rfl]

/-- The first token of a line is one of its cuts. -/
theorem isCut_firstToken {text : List Char} (htrim : Trimmed text) (hne : text ≠ []) :
    IsCut text (text.takeWhile (!isGap ·)) (text.dropWhile (!isGap ·)) where
  append := List.takeWhile_append_dropWhile
  ne_nil := firstToken_ne_nil htrim hne
  gap := by
    intro c hc
    have hstop := List.head?_dropWhile_not (!isGap ·) text
    rw [hc] at hstop
    simpa using hstop

/-- The cuts of a line are listed from the longest start to the shortest. -/
theorem pairwise_cuts (line : List Char) :
    (cuts line).Pairwise fun a b => b.passed.length < a.passed.length := by
  unfold cuts
  split
  · exact List.Pairwise.nil
  · exact pairwise_cutsFrom List.Pairwise.nil (by simp)

end ParseAudit.Line
