import ParseAudit.Proofs.Audit.Findings
/-!
# The order of records

Records are evaluated as they come: groups and lists are in the order in which the files are first
seen, and the first error of a file decides.  What is known of a file does not depend on that order,
and everything in an evaluation can be read off the files one by one.

* `filesOf_perm`, `anyError_perm`, `errorsOf_perm`: records in another order tell the same of the
  same files;
* `findings_eq_flatMap`: the findings of an evaluation, file by file;
* `rearranged_of_perm`: records in another order give the same verdict and the same figures, and
  lists with the same members.
-/

namespace ParseAudit

section Perm

variable {records records' : List Record}

/-- Records in another order are records of the same files. -/
theorem filesOf_perm (h : records.Perm records') : (filesOf records).Perm (filesOf records') := by
  -- Each file is listed once, so it only matters which files there are.
  refine (List.perm_ext_iff_of_nodup (nodup_filesOf records) (nodup_filesOf records')).2 ?_
  intro f
  rw [mem_filesOf, mem_filesOf]
  simp only [h.mem_iff]

theorem anyError_perm (h : records.Perm records') : anyError records = anyError records' :=
  funext fun _ => h.any_eq

theorem errorsOf_perm (h : records.Perm records') (f : RepoPath) :
    (errorsOf records f).Perm (errorsOf records' f) :=
  h.filter _

end Perm

namespace Finding

/-- The findings for a file by what the records say of it. -/
def ofFile (records : List Record) (invalid : FileSet) (f : RepoPath) : List Finding :=
  match Outcome.ofFacts (invalid.contains f) (anyError records f) with
  | .success => []
  | .unexpectedFailure => (errorsOf records f).map parseError
  | .expectedInvalid => (errorsOf records f).map expectedInvalid
  | .allowlistViolation => [allowlistViolation f]

theorem ofGroup_eq_ofFile {records : List Record} {g : FileGroup}
    (hg : g ∈ FileGroup.ofRecords records) (invalid : FileSet) :
    ofGroup invalid g = ofFile records invalid g.file := by
  unfold ofGroup ofFile
  rewrite [FileGroup.outcome_of_mem hg, FileGroup.errors_of_mem hg]
  rfl

/-- The findings for a file are the same, but for their order, if the records come in another
order. -/
theorem ofFile_perm {records records' : List Record} (h : records.Perm records')
    (invalid : FileSet) (f : RepoPath) :
    (ofFile records invalid f).Perm (ofFile records' invalid f) := by
  unfold ofFile
  rw [anyError_perm h]
  cases Outcome.ofFacts (invalid.contains f) (anyError records' f) with
  | success => exact .nil
  | unexpectedFailure => exact (errorsOf_perm h f).map _
  | expectedInvalid => exact (errorsOf_perm h f).map _
  | allowlistViolation => exact .refl _

end Finding

namespace Tally

section Perm

variable {records records' : List Record}

/-- Files are counted and listed alike if the records come in another order. -/
theorem ofRecords_perm (h : records.Perm records') (invalid : FileSet) :
    (Tally.ofRecords records invalid).successful = (Tally.ofRecords records' invalid).successful ∧
      (Tally.ofRecords records invalid).expectedInvalid =
        (Tally.ofRecords records' invalid).expectedInvalid ∧
      (Tally.ofRecords records invalid).failures.Perm
        (Tally.ofRecords records' invalid).failures ∧
      (Tally.ofRecords records invalid).allowlistViolations.Perm
        (Tally.ofRecords records' invalid).allowlistViolations := by
  have hfiles := filesOf_perm h
  rw [ofRecords_eq, ofRecords_eq, anyError_perm h]
  exact ⟨hfiles.countP_eq _, hfiles.countP_eq _, hfiles.filter _, hfiles.filter _⟩

theorem total_perm (h : records.Perm records') (invalid : FileSet) :
    (Tally.ofRecords records invalid).total = (Tally.ofRecords records' invalid).total := by
  rw [total_ofRecords, total_ofRecords, (filesOf_perm h).length_eq]

end Perm

end Tally

namespace Evaluation

/-- The findings of an evaluation are those for its files, one file after another. -/
theorem findings_eq_flatMap (records : List Record) (invalid : FileSet) :
    (ofRecords records invalid).findings =
      (filesOf records).flatMap (Finding.ofFile records invalid) := by
  show (FileGroup.ofRecords records).flatMap (Finding.ofGroup invalid) = _
  rw [← FileGroup.map_file_ofRecords, List.flatMap_map]
  exact List.flatMap_congr fun g hg => Finding.ofGroup_eq_ofFile hg invalid

/-- Two evaluations that differ at most in the order of what they list.  The verdict with its
reasons, the figures and the counts are the same, also in the 32 bits that a report has for them. -/
structure Rearranged (e e' : Evaluation) : Prop where
  status : e.status = e'.status
  reasons : e.reasons = e'.reasons
  total : e.tally.total = e'.tally.total
  successful : e.tally.successful = e'.tally.successful
  expectedInvalid : e.tally.expectedInvalid = e'.tally.expectedInvalid
  counts : e.counts = e'.counts
  verdict : e.verdict = e'.verdict
  failures : e.tally.failures.Perm e'.tally.failures
  allowlistViolations : e.tally.allowlistViolations.Perm e'.tally.allowlistViolations
  findings : e.findings.Perm e'.findings

/-- The order in which the records come decides nothing.  Records in another order give the same
verdict for the same reasons, the same figures and the same counts; the failures, the stale files
and the findings are the same but for their order. -/
theorem rearranged_of_perm {records records' : List Record} (h : records.Perm records')
    (invalid : FileSet) :
    (ofRecords records invalid).Rearranged (ofRecords records' invalid) := by
  obtain ⟨hsuccessful, hinvalid, hfailures, hviolations⟩ := Tally.ofRecords_perm h invalid
  have htotal := Tally.total_perm h invalid
  have hstatus : (ofRecords records invalid).status = (ofRecords records' invalid).status := by
    show (Tally.ofRecords records invalid).status = (Tally.ofRecords records' invalid).status
    unfold Tally.status Tally.passed
    rw [hfailures.isEmpty_eq, hviolations.isEmpty_eq]
  have hreasons : (ofRecords records invalid).reasons = (ofRecords records' invalid).reasons := by
    show (Tally.ofRecords records invalid).reasons = (Tally.ofRecords records' invalid).reasons
    unfold Tally.reasons
    rw [hfailures.isEmpty_eq, hviolations.isEmpty_eq, htotal]
  have hfindings : (ofRecords records invalid).findings.Perm
      (ofRecords records' invalid).findings := by
    rw [findings_eq_flatMap, findings_eq_flatMap]
    exact (filesOf_perm h).flatMap fun f _ => Finding.ofFile_perm h invalid f
  have hcounts : (ofRecords records invalid).counts = (ofRecords records' invalid).counts :=
    SeverityCounts.ofFindings_perm hfindings
  have hverdict : (ofRecords records invalid).verdict = (ofRecords records' invalid).verdict := by
    unfold verdict
    rw [hstatus, hcounts, hreasons]
  exact ⟨hstatus, hreasons, htotal, hsuccessful, hinvalid, hcounts, hverdict, hfailures,
    hviolations, hfindings⟩

/-- Four files, of which `a` and `c` are on the allowlist.  In the other order the files are seen
the other way round, and the clean record of `b` no longer comes before its errors. -/
theorem rearranged_of_perm_reversed :
    let records : List Record := [⟨⟨"b"⟩, none, "b"⟩,
      ⟨⟨"a"⟩, some ⟨3, 1, 3, 1, "MISSING"⟩, "a (1)"⟩,
      ⟨⟨"b"⟩, some ⟨1, 1, 1, 2, "ERROR"⟩, "b (1)"⟩, .clean ⟨"c"⟩,
      ⟨⟨"b"⟩, some ⟨2, 5, 4, 1, "ERROR"⟩, "b (2)"⟩, ⟨⟨"d"⟩, some ⟨1, 1, 1, 2, "ERROR"⟩, "d"⟩]
    let invalid : FileSet := .ofList [⟨"a"⟩, ⟨"c"⟩]
    records.Perm records.reverse ∧
      (ofRecords records invalid).tally.failures = [⟨"b"⟩, ⟨"d"⟩] ∧
      (ofRecords records.reverse invalid).tally.failures = [⟨"d"⟩, ⟨"b"⟩] ∧
      (ofRecords records invalid).Rearranged (ofRecords records.reverse invalid) := by
  intro records invalid
  have hperm : records.Perm records.reverse := (List.reverse_perm records).symm
  exact ⟨hperm, by decide +kernel, by decide +kernel, rearranged_of_perm hperm invalid⟩

end Evaluation

end ParseAudit
