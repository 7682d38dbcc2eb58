import ParseAudit.Proofs.Line.Cuts
/-!
# The last candidate of a line

The shortest way to read a line as a path and a rest ends with the first token.  So does the reading
of a line on its own, but only the candidates lose the blanks at the end of the path: a blank that
is no gap may stand there, and then the two readings name different paths.  The rest behind the path
is always the same.

* `getLast?_cutsFrom`: the loop keeps the first cut that it finds at the end of its list;
* `getLast?_candidates`: the last candidate is the first token without blanks at its end;
* `lastCandidate_eq_splitToken_iff`: the lines whose last candidate is the first token as it is;
* `lastCandidate_ne_splitToken`: a line with a blank right in front of its first gap.
-/

namespace ParseAudit.Line

open Chars

/-- The cuts that were found before stay at the end of the list, and the first cut that is found
comes to stand there if there were none. -/
theorem getLast?_cutsFrom (passed : List Char) (found : List Cut) (s : List Char) :
    (cutsFrom passed found s).getLast? =
      some (found.getLast?.getD
        ⟨(s.takeWhile (!isGap ·)).reverse ++ passed, s.dropWhile (!isGap ·)⟩) := by
  induction s generalizing passed found with
  | nil => exact List.getLast?_cons
  | cons c cs ih =>
    unfold cutsFrom
    dsimp only
    rw [ih]
    by_cases hc : isGap c = true
    · -- The line is cut here, so every later cut comes in front of this one.
      have htake : (c :: cs).takeWhile (!isGap ·) = [] := by simp [hc]
      have hdrop : (c :: cs).dropWhile (!isGap ·) = c :: cs := by simp [hc]
      rw [if_pos hc, List.getLast?_cons, Option.getD_some, htake, hdrop]
      rfl
    · have htake : (c :: cs).takeWhile (!isGap ·) = c :: cs.takeWhile (!isGap ·) := by simp [hc]
      have hdrop : (c :: cs).dropWhile (!isGap ·) = cs.dropWhile (!isGap ·) := by simp [hc]
      rw [if_neg hc, htake, hdrop, List.reverse_cons, List.append_assoc, List.singleton_append]

/-- The shortest cut of a line ends with its first token. -/
theorem getLast?_cuts {line : List Char} (hne : trim line ≠ []) :
    (cuts line).getLast? =
      some ⟨((trim line).takeWhile (!isGap ·)).reverse, (trim line).dropWhile (!isGap ·)⟩ := by
  unfold cuts
  split
  · next hblank => exact absurd hblank hne
  · rw [getLast?_cutsFrom, List.append_nil]
    rfl

/-- The last candidate of a line is its first token, but for blanks at the end of the token, and the
same rest. -/
theorem getLast?_candidates {line : List Char} (hne : trim line ≠ []) :
    (candidates line).getLast? = some (trimEnd (splitToken line).1, (splitToken line).2) := by
  have hpath : ∀ token : List Char, trimEnd token.reverse.reverse = trimEnd token := by
    intro token
    rw [List.reverse_reverse]
  unfold candidates
  rw [List.getLast?_map, getLast?_cuts hne, Option.map_some, Cut.path, Cut.rest, hpath]
  rfl

/-- A line that is not blank has candidates.  The last of them has the same rest as the reading of
the line on its own, and for its path the first token without the blanks at its end; so it is the
same reading exactly if no blank stands at the end of the first token. -/
theorem lastCandidate_eq_splitToken_iff (line : List Char) (hne : trim line ≠ []) :
    ∃ last, (candidates line).getLast? = some last ∧
      last.1 = trimEnd (splitToken line).1 ∧ last.2 = (splitToken line).2 ∧
      (last = splitToken line ↔ ∀ c ∈ (splitToken line).1.getLast?, isBlank c = false) := by
  refine ⟨_, getLast?_candidates hne, rfl, rfl, ?_⟩
  constructor
  · intro heq
    have hpath : trimEnd (splitToken line).1 = (splitToken line).1 := congrArg Prod.fst heq
    have hlast := last_trimEnd (splitToken line).1
    rw [hpath] at hlast
    exact hlast
  · intro hlast
    have hpath : trimEnd (splitToken line).1 = (splitToken line).1 := trimEnd_eq_self hlast
    rw [hpath]

/-- A path with a blank in the middle, timing columns and an error node. -/
theorem lastCandidate_eq_splitToken_iff_columns :
    let line := " a\u00a0b\t1 ms (ERROR [0, 0] - [0, 1])\r".toList
    trim line ≠ [] ∧ (∀ c ∈ (splitToken line).1.getLast?, isBlank c = false) ∧
      (candidates line).getLast? = some (splitToken line) := by
  intro line
  have hne : trim line ≠ [] := by decide +kernel
  have htoken : (splitToken line).1 = ['a', '\u00a0', 'b'] := by decide +kernel
  have hlast : ∀ c ∈ (splitToken line).1.getLast?, isBlank c = false := by
    intro c hc
    rw [htoken] at hc
    obtain rfl : 'b' = c := Option.some.inj hc
    decide
  obtain ⟨last, hcandidates, -, -, hiff⟩ := lastCandidate_eq_splitToken_iff line hne
  have heq : last = splitToken line := hiff.2 hlast
  rw [heq] at hcandidates
  exact ⟨hne, hlast, hcandidates⟩

/-- Only spaces and tabs are gaps, but every blank is trimmed.  So a no-break space right in front
of the first gap belongs to the first token and not to the path of the last candidate. -/
theorem lastCandidate_ne_splitToken :
    let line := "a\u00a0 b".toList
    trim line ≠ [] ∧ (candidates line).getLast? = some (['a'], ['b']) ∧
      splitToken line = (['a', '\u00a0'], ['b']) ∧
      (candidates line).getLast? ≠ some (splitToken line) := by
  intro line
  have hne : trim line ≠ [] := by decide +kernel
  have hlast : (candidates line).getLast? = some (['a'], ['b']) := by decide +kernel
  have htoken : splitToken line = (['a', '\u00a0'], ['b']) := by decide +kernel
  have hdiffer : (candidates line).getLast? ≠ some (splitToken line) := by
    rw [hlast, htoken]
    decide
  exact ⟨hne, hlast, htoken, hdiffer⟩

end ParseAudit.Line
