import ParseAudit.Text.Lines
/-!
# Cuts at separators

When a text is cut at the first or the last occurrence of a separator, the side on which no further
occurrence may lie settles the cut.

* `splitFirst_singleton_eq_some_iff`: the cut at the first occurrence of a character;
* `splitLast_of_tail_eq_none`: the cut at the last occurrence of any separator;
* `splitFirst_of_not_mem`: the cut at the first occurrence of any separator;
* `append_cons_eq_iff`: two cuts of one text at a character, which need not be its first occurrence;
* `stripStart?_eq_some_iff`, `stripEnd?_eq_some_iff`: a text without its start or its end;
* `mem_intercalate`: the characters of texts that are put together with separators;
* `of_mem_splitOnP`, `splitOnP_append_of_not`: the pieces between all separators of a text.
-/

namespace ParseAudit.Chars

/-! ## The first occurrence -/

theorem splitFirst_singleton_cons (c d : Char) (s : List Char) :
    splitFirst [c] (d :: s) =
      if c = d then some ([], s) else (splitFirst [c] s).map fun (a, b) => (d :: a, b) := by
  by_cases h : c = d <;> simp [splitFirst, h]

/-- A cut at the first occurrence of a character leaves none of it in front. -/
theorem splitFirst_singleton_eq_some_iff {c : Char} {s a b : List Char} :
    splitFirst [c] s = some (a, b) ↔ s = a ++ c :: b ∧ c ∉ a := by
  induction s generalizing a with
  | nil => simp [splitFirst]
  | cons d ds ih =>
    rw [splitFirst_singleton_cons]
    by_cases hcd : c = d
    · subst hcd
      constructor
      · intro h
        simp only [if_true, Option.some.injEq, Prod.mk.injEq] at h
        obtain ⟨rfl, rfl⟩ := h
        exact ⟨rfl, List.not_mem_nil⟩
      · rintro ⟨hs, ha⟩
        cases a with
        | nil =>
          cases hs
          rw [if_pos rfl]
        | cons e es =>
          injection hs with he
          exact absurd (he ▸ List.mem_cons_self) ha
    · rw [if_neg hcd, Option.map_eq_some_iff]
      constructor
      · rintro ⟨⟨a', b'⟩, hs, he⟩
        simp only [Prod.mk.injEq] at he
        obtain ⟨rfl, rfl⟩ := he
        obtain ⟨rfl, ha'⟩ := ih.1 hs
        exact ⟨rfl, List.not_mem_cons_of_ne_of_not_mem hcd ha'⟩
      · rintro ⟨hs, ha⟩
        cases a with
        | nil =>
          injection hs with he
          exact absurd he.symm hcd
        | cons e es =>
          injection hs with he hs
          subst he
          exact ⟨(es, b), ih.2 ⟨hs, List.not_mem_of_not_mem_cons ha⟩, rfl⟩

/-- The first occurrence of a separator does not begin where its first character is missing. -/
theorem splitFirst_of_not_mem {c : Char} {sep a : List Char} (h : c ∉ a) (b : List Char) :
    splitFirst (c :: sep) (a ++ (c :: sep) ++ b) = some (a, b) := by
  induction a with
  | nil => simp [splitFirst]
  | cons d ds ih =>
    rw [List.mem_cons, not_or] at h
    simpa [splitFirst, h.1] using ih h.2

/-! ## Any occurrence -/

/-- Two cuts of one text at a character are the same, or what stands between them goes to the front
in one and to the rest in the other. -/
theorem append_cons_eq_iff {c : Char} {a b a' b' : List Char} :
    a ++ c :: b = a' ++ c :: b' ↔
      a = a' ∧ b = b' ∨ (∃ mid, a' = a ++ c :: mid ∧ b = mid ++ c :: b') ∨
        ∃ mid, a = a' ++ c :: mid ∧ b' = mid ++ c :: b := by
  constructor
  · intro h
    rcases List.append_eq_append_iff.1 h with ⟨mid, ha', hb⟩ | ⟨mid, ha, hb'⟩
    · rcases List.cons_eq_append_iff.1 hb with ⟨rfl, htail⟩ | ⟨mid', rfl, htail⟩
      · injection htail with _ htail
        exact .inl ⟨by simpa using ha'.symm, htail.symm⟩
      · exact .inr (.inl ⟨mid', ha', htail⟩)
    · rcases List.cons_eq_append_iff.1 hb' with ⟨rfl, htail⟩ | ⟨mid', rfl, htail⟩
      · injection htail with _ htail
        exact .inl ⟨by simpa using ha, htail⟩
      · exact .inr (.inr ⟨mid', ha, htail⟩)
  · rintro (⟨rfl, rfl⟩ | ⟨mid, rfl, rfl⟩ | ⟨mid, rfl, rfl⟩) <;> simp

/-- Two cuts of one text at the first occurrence of a character are the same. -/
theorem append_cons_inj_of_not_mem {c : Char} {a b a' b' : List Char} (h : c ∉ a) (h' : c ∉ a') :
    a ++ c :: b = a' ++ c :: b' ↔ a = a' ∧ b = b' := by
  rw [append_cons_eq_iff]
  constructor
  · rintro (heq | ⟨mid, rfl, -⟩ | ⟨mid, rfl, -⟩)
    · exact heq
    · exact absurd (List.mem_append_right a List.mem_cons_self) h'
    · exact absurd (List.mem_append_right a' List.mem_cons_self) h
  · exact .inl

/-! ## The last occurrence -/

/-- More text in front moves a cut at the last occurrence along. -/
theorem splitLast_append {sep s a b : List Char} (p : List Char)
    (h : splitLast sep s = some (a, b)) : splitLast sep (p ++ s) = some (p ++ a, b) := by
  induction p with
  | nil => exact h
  | cons c p ih => simp [splitLast, ih]

/-- A separator does not occur where one of its characters is missing. -/
theorem splitLast_eq_none_of_not_mem {sep s : List Char} {c : Char} (hc : c ∈ sep) (hs : c ∉ s) :
    splitLast sep s = none := by
  cases h : splitLast sep s with
  | none => rfl
  | some cut =>
    obtain ⟨a, b⟩ := cut
    have happ : s = a ++ sep ++ b := splitLast_eq_some h
    refine absurd ?_ hs
    rw [happ]
    exact List.mem_append_left b (List.mem_append_right a hc)

/-- An occurrence of a separator is the last one if none begins after its first character. -/
theorem splitLast_of_tail_eq_none {c : Char} {sep a b : List Char}
    (h : splitLast (c :: sep) (sep ++ b) = none) :
    splitLast (c :: sep) (a ++ (c :: sep) ++ b) = some (a, b) := by
  have hhere : splitLast (c :: sep) (c :: sep ++ b) = some ([], b) := by
    simp [splitLast, h]
  rw [List.append_assoc]
  simpa using splitLast_append a hhere

/-- The cut at the last occurrence of a character. -/
theorem splitLast_singleton {c : Char} {a b : List Char} (h : c ∉ b) :
    splitLast [c] (a ++ c :: b) = some (a, b) := by
  have hnone : splitLast [c] ([] ++ b) = none := splitLast_eq_none_of_not_mem List.mem_cons_self h
  simpa using splitLast_of_tail_eq_none (a := a) hnone

/-! ## The start and the end -/

theorem stripStart?_eq_some_iff {p s t : List Char} : stripStart? p s = some t ↔ s = p ++ t := by
  unfold stripStart?
  constructor
  · intro h
    split at h
    next hp =>
      cases h
      exact eq_append_drop_of_isPrefixOf hp
    next => cases h
  · rintro rfl
    rw [if_pos (List.isPrefixOf_iff_prefix.2 (List.prefix_append p t)), List.drop_left]

theorem stripEnd?_eq_some_iff {p s t : List Char} : stripEnd? p s = some t ↔ s = t ++ p := by
  unfold stripEnd?
  constructor
  · intro h
    split at h
    next hp =>
      cases h
      obtain ⟨t, rfl⟩ := List.isSuffixOf_iff_suffix.1 hp
      simp
    next => cases h
  · rintro rfl
    rw [if_pos (List.isSuffixOf_iff_suffix.2 (List.suffix_append t p))]
    simp

/-! ## Separators between texts -/

theorem mem_intercalate {c : Char} {sep : List Char} {l : List (List Char)}
    (h : c ∈ sep.intercalate l) : c ∈ sep ∨ ∃ s ∈ l, c ∈ s := by
  induction l with
  | nil => cases h
  | cons s ss ih =>
    cases ss with
    | nil =>
      rw [List.intercalate_singleton] at h
      exact .inr ⟨s, List.mem_cons_self, h⟩
    | cons t ts =>
      rw [List.intercalate_cons_cons, List.mem_append, List.mem_append] at h
      rcases h with (h | h) | h
      · exact .inr ⟨s, List.mem_cons_self, h⟩
      · exact .inl h
      · exact (ih h).imp_right fun ⟨u, hu, hc⟩ => ⟨u, List.mem_cons_of_mem s hu, hc⟩

/-! ## The pieces between all separators -/

section Pieces

variable {isSep : Char → Bool}

/-- The pieces of a text that starts with no separator. -/
theorem splitOnP_cons_of_not {c : Char} {cs first : List Char} {rest : List (List Char)}
    (h : isSep c = false) (hcs : cs.splitOnP isSep = first :: rest) :
    (c :: cs).splitOnP isSep = (c :: first) :: rest := by
  rw [List.splitOnP_cons_eq_if_modifyHead, hcs]
  simp [h]

theorem splitOnP_cons_separator {c : Char} (h : isSep c = true) (cs : List Char) :
    (c :: cs).splitOnP isSep = [] :: cs.splitOnP isSep := by
  rw [List.splitOnP_cons_eq_if_modifyHead, if_pos h]

/-- The pieces of a text hold its characters, and no separator. -/
theorem of_mem_splitOnP {s piece : List Char} (h : piece ∈ s.splitOnP isSep) {c : Char}
    (hc : c ∈ piece) : c ∈ s ∧ isSep c = false := by
  induction s generalizing piece with
  | nil =>
    rw [List.splitOnP_nil, List.mem_singleton] at h
    rw [h] at hc
    cases hc
  | cons d ds ih =>
    have hlater : ∀ {piece}, piece ∈ ds.splitOnP isSep → c ∈ piece →
        c ∈ d :: ds ∧ isSep c = false := by
      intro piece hpiece hc
      obtain ⟨hmem, hfree⟩ := ih hpiece hc
      exact ⟨List.mem_cons_of_mem d hmem, hfree⟩
    obtain ⟨first, rest, hds⟩ := List.exists_cons_of_ne_nil (List.splitOnP_ne_nil isSep ds)
    rw [hds] at hlater
    by_cases hd : isSep d = true
    · rw [splitOnP_cons_separator hd, hds] at h
      rcases List.mem_cons.1 h with rfl | h
      · cases hc
      · exact hlater h hc
    · have hd : isSep d = false := by simpa using hd
      rw [splitOnP_cons_of_not hd hds] at h
      rcases List.mem_cons.1 h with rfl | h
      · rcases List.mem_cons.1 hc with rfl | hc
        · exact ⟨List.mem_cons_self, hd⟩
        · exact hlater List.mem_cons_self hc
      · exact hlater (List.mem_cons_of_mem _ h) hc

/-- Text without a separator belongs to the first piece of what follows. -/
theorem splitOnP_append_of_not {s b first : List Char} {rest : List (List Char)}
    (h : ∀ c ∈ s, isSep c = false) (hb : b.splitOnP isSep = first :: rest) :
    (s ++ b).splitOnP isSep = (s ++ first) :: rest := by
  induction s with
  | nil => exact hb
  | cons c cs ih =>
    have hcs := ih fun d hd => h d (List.mem_cons_of_mem c hd)
    exact splitOnP_cons_of_not (h c List.mem_cons_self) hcs

end Pieces

/-- No piece of a text holds the character that it is split at. -/
theorem not_mem_of_mem_splitOn {c : Char} {s piece : List Char} (h : piece ∈ s.splitOn c) :
    c ∉ piece := by
  rw [List.splitOn_eq_splitOnP] at h
  intro hc
  have hno := (of_mem_splitOnP h hc).2
  rw [beq_self_eq_true] at hno
  cases hno

end ParseAudit.Chars
