import ParseAudit.Proofs.Scan.Reading
/-!
# Malformed lines

A line is malformed if it belongs to a file that was looked for and ends like an error node without
being one.  Such a line is all that keeps an output from being read.

* `scanLine_error_iff`: the lines that cannot be read;
* `scanOutput_error_iff`, `batch_error_iff`: the outputs that cannot be read.
-/

namespace ParseAudit.Scan

open Chars Line

/-- A line that belongs to one of the files and ends with the `)` of an error node, but has no error
node behind the file. -/
def Malformed (files : RepoPath → Prop) (base : String) (line : List Char) : Prop :=
  ∃ before after, Attributed files base (trim line) before after ∧
    (trim after).getLast? = some ')' ∧ ∀ region, ¬IsErrorNode (trim after) region

theorem malformed_congr {files files' : RepoPath → Prop} {base : String} {line : List Char}
    (h : ∀ p, files p ↔ files' p) : Malformed files base line ↔ Malformed files' base line := by
  unfold Malformed
  simp only [attributed_congr h]

variable {isTarget : RepoPath → Bool} {base : String}

/-- A line contributes something unless it is malformed. -/
theorem contributes_or_malformed (isTarget : RepoPath → Bool) (base : String) (line : List Char) :
    (∃ out, Contributes (isTarget · = true) base line out) ∨
      Malformed (isTarget · = true) base line := by
  by_cases hblank : trim line = []
  · exact .inl ⟨_, .blank hblank⟩
  · by_cases hnone : ∀ before after, IsCut (trim line) before after →
      ¬isTarget (fileOf base before) = true
    · exact .inl ⟨_, .unmatched hblank hnone⟩
    · obtain ⟨before, after, hcut, hmem⟩ : ∃ before after, IsCut (trim line) before after ∧
          isTarget (fileOf base before) = true := by
        simpa only [not_forall, not_not, exists_prop] using hnone
      obtain ⟨before, after, hatt⟩ := exists_attributed hcut hmem
      by_cases hlast : (trim after).getLast? = some ')'
      · by_cases hnode : ∃ region, IsErrorNode (trim after) region
        · obtain ⟨region, hnode⟩ := hnode
          have hsaid : Says (trim after) (some region) := hnode
          exact .inl ⟨_, .record hatt hsaid⟩
        · exact .inr ⟨before, after, hatt, hlast, not_exists.1 hnode⟩
      · have hsaid : Says (trim after) none := hlast
        exact .inl ⟨_, .record hatt hsaid⟩

/-- A malformed line contributes nothing at all. -/
theorem Malformed.not_contributes {files : RepoPath → Prop} {line : List Char} {out : ScanOutput}
    (h : Malformed files base line) : ¬Contributes files base line out := by
  obtain ⟨before, after, hatt, hlast, hnode⟩ := h
  intro hout
  obtain ⟨region, hsaid, -⟩ := hout.of_attributed hatt
  cases region with
  | none => exact hsaid hlast
  | some region => exact hnode region hsaid

/-- A line cannot be read exactly if it is malformed. -/
theorem scanLine_error_iff {line : List Char} :
    (∃ e, scanLine isTarget base line = .error e) ↔ Malformed (isTarget · = true) base line := by
  constructor
  · rintro ⟨e, he⟩
    rcases contributes_or_malformed isTarget base line with ⟨out, hout⟩ | h
    · rw [scanLine_eq_ok_iff.2 hout] at he
      cases he
    · exact h
  · intro h
    cases hscan : scanLine isTarget base line with
    | error e => exact ⟨e, rfl⟩
    | ok out => exact absurd (scanLine_eq_ok_iff.1 hscan) h.not_contributes

/-- The lines of an output cannot all be read exactly if one of them is malformed. -/
theorem scanOutput_error_iff {stdout : String} :
    (∃ e, scanOutput isTarget base stdout = .error e) ↔
      ∃ line ∈ lines stdout.toList, Malformed (isTarget · = true) base line := by
  constructor
  · rintro ⟨e, he⟩
    obtain ⟨earlier, line, later, cause, hlines, -, hline, -⟩ := scanLines_eq_error_iff.1 he
    have hmem : line ∈ lines stdout.toList :=
      hlines ▸ List.mem_append_right earlier List.mem_cons_self
    exact ⟨line, hmem, scanLine_error_iff.1 ⟨cause, hline⟩⟩
  · rintro ⟨line, hmem, hline⟩
    obtain ⟨e, he⟩ := scanLine_error_iff.2 hline
    exact scanLines_eq_error hmem he 1

/-- An output cannot be read exactly if one of its lines is malformed. -/
theorem batch_error_iff {stdout : String} {targets : FileSet} :
    (∃ e, batch stdout targets base = .error e) ↔
      ∃ line ∈ lines stdout.toList, Malformed (· ∈ targets) base line := by
  simp only [batch_eq_error_iff, scanOutput_error_iff,
    malformed_congr fun p => FileSet.contains_iff]

end ParseAudit.Scan
