import ParseAudit.Audit.Evaluation
import ParseAudit.Proofs.Audit.Groups
import Mathlib.Data.List.Count
/-!
# The tally of an audit

A tally is counted group by group.  All its figures can be read off the distinct files of the
records: whether a file is listed, and whether one of its records has an error.

* `ofGroups_eq`: the tally of some groups, figure by figure;
* `ofRecords_eq`, `total_ofRecords`: the tally of some records, file by file;
* `Evaluation.agrees_of_perm`: groups in another order give the same verdict and the same figures,
  and the same failures if these are in the same order.
-/

namespace ParseAudit

open FileGroup

namespace Tally

/-! ## By groups -/

theorem ofGroups_concat (groups : List FileGroup) (g : FileGroup) (invalid : FileSet) :
    ofGroups (groups ++ [g]) invalid =
      (ofGroups groups invalid).add g.file (g.outcome invalid) := by
  unfold ofGroups
  rw [List.foldl_append]
  rfl

/-- Each figure of a tally counts, or lists, the groups with certain outcomes. -/
theorem ofGroups_eq (groups : List FileGroup) (invalid : FileSet) :
    ofGroups groups invalid =
      { successful := groups.countP fun g =>
          g.outcome invalid = .success ∨ g.outcome invalid = .allowlistViolation
        expectedInvalid := groups.countP fun g => g.outcome invalid = .expectedInvalid
        failures := (groups.filter fun g => g.outcome invalid = .unexpectedFailure).map file
        allowlistViolations :=
          (groups.filter fun g => g.outcome invalid = .allowlistViolation).map file } := by
  induction groups using List.reverseRecOn with
  | nil => rfl
  | append_singleton groups g ih =>
    rw [ofGroups_concat, ih]
    cases h : g.outcome invalid <;>
      simp [add, List.countP_append, List.filter_append, h]

/-! ## By files -/

/-- The tally of some records, file by file. -/
theorem ofRecords_eq (records : List Record) (invalid : FileSet) :
    Tally.ofRecords records invalid =
      { successful := (filesOf records).countP fun f => !anyError records f
        expectedInvalid :=
          (filesOf records).countP fun f => invalid.contains f && anyError records f
        failures := (filesOf records).filter fun f => !invalid.contains f && anyError records f
        allowlistViolations :=
          (filesOf records).filter fun f => invalid.contains f && !anyError records f } := by
  unfold Tally.ofRecords
  rw [ofGroups_eq]
  congr 1
  · exact countP_outcome records invalid (fun o => o = .success ∨ o = .allowlistViolation)
      (fun _ hasError => !hasError) (by decide)
  · exact countP_outcome records invalid (fun o => o = .expectedInvalid)
      (fun listed hasError => listed && hasError) (by decide)
  · exact map_file_filter_outcome records invalid (fun o => o = .unexpectedFailure)
      (fun listed hasError => !listed && hasError) (by decide)
  · exact map_file_filter_outcome records invalid (fun o => o = .allowlistViolation)
      (fun listed hasError => listed && !hasError) (by decide)

/-- Every file is counted once: as one without errors, or as one with errors that is listed, or as
one that is not. -/
theorem total_ofRecords (records : List Record) (invalid : FileSet) :
    (Tally.ofRecords records invalid).total = (filesOf records).length := by
  rw [ofRecords_eq]
  unfold total
  dsimp only
  rw [← List.countP_eq_length_filter]
  induction filesOf records with
  | nil => rfl
  | cons f fs ih =>
    simp only [List.countP_cons, List.length_cons]
    cases invalid.contains f <;> cases anyError records f <;> simp <;> omega

/-! ## The verdict -/

theorem status_eq_fail_iff {t : Tally} : t.status = .fail ↔ t.failures ≠ [] := by
  unfold status passed
  cases t.failures <;> cases t.allowlistViolations <;> simp

theorem status_eq_warn_iff {t : Tally} :
    t.status = .warn ↔ t.failures = [] ∧ t.allowlistViolations ≠ [] := by
  unfold status passed
  cases t.failures <;> cases t.allowlistViolations <;> simp

theorem status_eq_pass_iff {t : Tally} :
    t.status = .pass ↔ t.failures = [] ∧ t.allowlistViolations = [] := by
  unfold status passed
  cases t.failures <;> cases t.allowlistViolations <;> simp

end Tally

/-! ## Evaluations -/

theorem SeverityCounts.ofFindings_perm {findings findings' : List Finding}
    (h : findings.Perm findings') : ofFindings findings = ofFindings findings' := by
  unfold ofFindings
  rw [h.countP_eq, h.countP_eq, h.countP_eq]

namespace Evaluation

/-- Two evaluations that differ at most in the order of their findings and of the listed files that
are clean. -/
structure Agrees (e e' : Evaluation) : Prop where
  status : e.status = e'.status
  reasons : e.reasons = e'.reasons
  total : e.tally.total = e'.tally.total
  successful : e.tally.successful = e'.tally.successful
  expectedInvalid : e.tally.expectedInvalid = e'.tally.expectedInvalid
  counts : e.counts = e'.counts
  failures : e.tally.failures = e'.tally.failures
  allowlistViolations : e.tally.allowlistViolations.Perm e'.tally.allowlistViolations
  findings : e.findings.Perm e'.findings

/-- Groups in another order give the same evaluation, but for the order of its findings, if the
failing groups are in the same order. -/
theorem agrees_of_perm {records records' : List Record} {invalid : FileSet}
    (hperm : (FileGroup.ofRecords records).Perm (FileGroup.ofRecords records'))
    (hfailures : (FileGroup.ofRecords records).filter (·.outcome invalid = .unexpectedFailure) =
      (FileGroup.ofRecords records').filter (·.outcome invalid = .unexpectedFailure)) :
    (Evaluation.ofRecords records invalid).Agrees (Evaluation.ofRecords records' invalid) := by
  have hfindings := hperm.flatMap_right (Finding.ofGroup invalid)
  unfold Evaluation.ofRecords
  dsimp only
  rw [Tally.ofGroups_eq, Tally.ofGroups_eq, hfailures, hperm.countP_eq, hperm.countP_eq]
  have hviolations := (hperm.filter (·.outcome invalid = .allowlistViolation)).map file
  exact {
    status := by unfold Tally.status Tally.passed; dsimp only; rw [hviolations.isEmpty_eq]
    reasons := by unfold Tally.reasons Tally.total; dsimp only; rw [hviolations.isEmpty_eq]
    total := rfl
    successful := rfl
    expectedInvalid := rfl
    counts := SeverityCounts.ofFindings_perm hfindings
    failures := rfl
    allowlistViolations := hviolations
    findings := hfindings }

end Evaluation

end ParseAudit
