import ParseAudit.Proofs.Audit.Rearranged
/-!
# The reach of the allowlist

Whether a file is on the allowlist matters for that file alone.  A larger allowlist therefore only
takes files off the failures, and more records only add files to them.

* `Finding.locatedOutside_flatMap`: findings for files are told apart by these files;
* `ofRecords_congr`: only the listed files that occur among the records count;
* `Tally.failures_of_subset`, `findings_of_subset`: what a larger allowlist changes;
* `Tally.failures_sublist_append`: what further records change;
* `allowlist_acts_locally`: all of it, with what it means for the verdict.
-/

namespace ParseAudit

variable {records : List Record} {invalid invalid' : FileSet}

/-! ## Findings by their files -/

namespace Finding

/-- A finding for a file is located in it. -/
theorem path_of_mem_ofFile {f : RepoPath} {finding : Finding}
    (h : finding ∈ ofFile records invalid f) : finding.location.map Location.path = some f := by
  have hnode : ∀ (severity : Severity) (code title : String),
      finding ∈ (errorsOf records f).map (ofErrorNode severity code title) →
        finding.location.map Location.path = some f := by
    intro severity code title hmem
    obtain ⟨r, hr, rfl⟩ := List.mem_map.1 hmem
    have hfile := (List.mem_filter.1 hr).2
    rw [Bool.and_eq_true, decide_eq_true_eq] at hfile
    rw [path_ofErrorNode, hfile.1]
  unfold ofFile at h
  cases houtcome : Outcome.ofFacts (invalid.contains f) (anyError records f) with
  | success =>
    rw [houtcome] at h
    cases h
  | unexpectedFailure =>
    rw [houtcome] at h
    exact hnode _ _ _ h
  | expectedInvalid =>
    rw [houtcome] at h
    exact hnode _ _ _ h
  | allowlistViolation =>
    rw [houtcome] at h
    rw [List.mem_singleton.1 h]
    rfl

/-- The findings that are not located in certain files. -/
def locatedOutside (files : RepoPath → Bool) (findings : List Finding) : List Finding :=
  findings.filter fun finding => finding.location.all fun l => !files l.path

/-- Of the findings for some files those stay that are for files outside. -/
theorem locatedOutside_flatMap (files : RepoPath → Bool) (fs : List RepoPath) :
    locatedOutside files (fs.flatMap (ofFile records invalid)) =
      (fs.filter (!files ·)).flatMap (ofFile records invalid) := by
  have hwhere : ∀ f, ∀ finding ∈ ofFile records invalid f,
      (finding.location.all fun l => !files l.path) = !files f := by
    intro f finding hmem
    obtain ⟨l, hl, rfl⟩ := Option.map_eq_some_iff.1 (path_of_mem_ofFile hmem)
    rw [hl]
    rfl
  unfold locatedOutside
  induction fs with
  | nil => rfl
  | cons f fs ih =>
    rw [List.flatMap_cons, List.filter_append, ih, List.filter_congr (hwhere f)]
    cases hf : files f with
    | true => simp [hf]
    | false => simp [hf]

/-- The findings for a file depend on the allowlist only as far as the file is on it. -/
theorem ofFile_congr {f : RepoPath} (h : f ∈ invalid ↔ f ∈ invalid') :
    ofFile records invalid f = ofFile records invalid' f := by
  have hcontains : invalid.contains f = invalid'.contains f := by
    rw [Bool.eq_iff_iff, FileSet.contains_iff, FileSet.contains_iff, h]
  unfold ofFile
  rw [hcontains]

end Finding

/-! ## The tally -/

namespace Tally

theorem ofRecords_congr (h : ∀ f ∈ filesOf records, f ∈ invalid ↔ f ∈ invalid') :
    Tally.ofRecords records invalid = Tally.ofRecords records invalid' := by
  have hcontains : ∀ f ∈ filesOf records, invalid.contains f = invalid'.contains f := by
    intro f hf
    rw [Bool.eq_iff_iff, FileSet.contains_iff, FileSet.contains_iff, h f hf]
  rw [ofRecords_eq, ofRecords_eq]
  congr 1
  · refine List.countP_congr fun f hf => ?_
    rw [hcontains f hf]
  · refine List.filter_congr fun f hf => ?_
    rw [hcontains f hf]
  · refine List.filter_congr fun f hf => ?_
    rw [hcontains f hf]

/-- A larger allowlist takes its own files off the failures and leaves the others in their order. -/
theorem failures_of_subset (records : List Record) (h : ∀ f ∈ invalid, f ∈ invalid') :
    (Tally.ofRecords records invalid').failures =
      (Tally.ofRecords records invalid).failures.filter (· ∉ invalid') := by
  rw [ofRecords_eq, ofRecords_eq, List.filter_filter]
  refine List.filter_congr fun f _ => ?_
  rw [Bool.eq_iff_iff]
  simp only [Bool.and_eq_true, Bool.not_eq_true', ← Bool.not_eq_true, FileSet.contains_iff,
    decide_eq_true_eq]
  constructor
  · rintro ⟨hlisted, herror⟩
    exact ⟨hlisted, fun hsmall => hlisted (h f hsmall), herror⟩
  · rintro ⟨hlisted, -, herror⟩
    exact ⟨hlisted, herror⟩

/-- Further records neither take a failure back nor change the order of the failures. -/
theorem failures_sublist_append (records later : List Record) (invalid : FileSet) :
    (Tally.ofRecords records invalid).failures.Sublist
      (Tally.ofRecords (records ++ later) invalid).failures := by
  have hfiles : (filesOf records).Sublist (filesOf (records ++ later)) := by
    unfold filesOf
    rw [List.map_append, List.eraseDups_append]
    exact List.sublist_append_left _ _
  have herrors : ∀ f, anyError records f = true → anyError (records ++ later) f = true := by
    intro f herror
    unfold anyError at herror ⊢
    rw [List.any_append, herror, Bool.true_or]
  rw [ofRecords_eq, ofRecords_eq]
  -- A file that fails stays one that fails, and keeps its place among the files.
  refine (List.monotone_filter_right (filesOf records) fun f hf => ?_).trans (hfiles.filter _)
  rw [Bool.and_eq_true] at hf ⊢
  exact ⟨hf.1, herrors f hf.2⟩

end Tally

/-! ## Evaluations -/

namespace Evaluation

/-- Tally and findings are all that an evaluation is made of. -/
theorem ofRecords_eq_of {records' : List Record}
    (htally : Tally.ofRecords records invalid = Tally.ofRecords records' invalid')
    (hfindings : (ofRecords records invalid).findings = (ofRecords records' invalid').findings) :
    ofRecords records invalid = ofRecords records' invalid' := by
  have hparts : ∀ rs i, ofRecords rs i =
      { status := (Tally.ofRecords rs i).status
        reasons := (Tally.ofRecords rs i).reasons
        findings := (ofRecords rs i).findings
        tally := Tally.ofRecords rs i
        counts := .ofFindings (ofRecords rs i).findings } := fun _ _ => rfl
  rw [hparts, hparts records', htally, hfindings]

/-- An evaluation depends on the allowlist only as far as the files of the records are on it. -/
theorem ofRecords_congr (h : ∀ f ∈ filesOf records, f ∈ invalid ↔ f ∈ invalid') :
    ofRecords records invalid = ofRecords records invalid' := by
  refine ofRecords_eq_of (Tally.ofRecords_congr h) ?_
  rw [findings_eq_flatMap, findings_eq_flatMap]
  exact List.flatMap_congr fun f hf => Finding.ofFile_congr (h f hf)

/-- A larger allowlist changes findings only in the files that it has more. -/
theorem findings_of_subset (h : ∀ f ∈ invalid, f ∈ invalid') :
    Finding.locatedOutside (fun f => f ∈ invalid' ∧ f ∉ invalid)
        (ofRecords records invalid).findings =
      Finding.locatedOutside (fun f => f ∈ invalid' ∧ f ∉ invalid)
        (ofRecords records invalid').findings := by
  rw [findings_eq_flatMap, findings_eq_flatMap, Finding.locatedOutside_flatMap,
    Finding.locatedOutside_flatMap]
  refine List.flatMap_congr fun f hf => Finding.ofFile_congr ?_
  have houtside : ¬(f ∈ invalid' ∧ f ∉ invalid) := by
    have htest := (List.mem_filter.1 hf).2
    rwa [Bool.not_eq_true', decide_eq_false_iff_not] at htest
  exact ⟨h f, fun hlarge => Classical.not_not.1 fun hsmall => houtside ⟨hlarge, hsmall⟩⟩

theorem status_eq_fail_iff : (ofRecords records invalid).status = .fail ↔
    (Tally.ofRecords records invalid).failures ≠ [] :=
  Tally.status_eq_fail_iff

/-- The allowlist acts locally, and the verdict is monotone.  A larger allowlist takes its own files
off the failures and leaves the order of the others; it changes no finding outside of the files that
it has more, and makes no audit fail that did not fail before.  Of an allowlist only the files that
occur among the records count.  Further records leave every failure, in the same order, so that an
audit that fails stays one that fails. -/
theorem allowlist_acts_locally (records : List Record) :
    (∀ invalid invalid' : FileSet, (∀ f ∈ invalid, f ∈ invalid') →
      (ofRecords records invalid').tally.failures =
          (ofRecords records invalid).tally.failures.filter (· ∉ invalid') ∧
        Finding.locatedOutside (fun f => f ∈ invalid' ∧ f ∉ invalid)
            (ofRecords records invalid).findings =
          Finding.locatedOutside (fun f => f ∈ invalid' ∧ f ∉ invalid)
            (ofRecords records invalid').findings ∧
        ((ofRecords records invalid).status ≠ .fail →
          (ofRecords records invalid').status ≠ .fail)) ∧
    (∀ invalid invalid' : FileSet, (∀ r ∈ records, r.file ∈ invalid ↔ r.file ∈ invalid') →
      ofRecords records invalid = ofRecords records invalid') ∧
    ∀ (invalid : FileSet) (later : List Record),
      (ofRecords records invalid).tally.failures.Sublist
          (ofRecords (records ++ later) invalid).tally.failures ∧
        ((ofRecords records invalid).status = .fail →
          (ofRecords (records ++ later) invalid).status = .fail) := by
  refine ⟨?_, ?_, ?_⟩
  · intro invalid invalid' hsubset
    have hfailures := Tally.failures_of_subset records hsubset
    refine ⟨hfailures, findings_of_subset hsubset, ?_⟩
    intro hpassed hfailed
    rw [status_eq_fail_iff, hfailures] at hfailed
    rw [Ne, status_eq_fail_iff, Classical.not_not] at hpassed
    rw [hpassed] at hfailed
    exact hfailed rfl
  · intro invalid invalid' hsame
    refine ofRecords_congr fun f hf => ?_
    obtain ⟨r, hr, rfl⟩ := mem_filesOf.1 hf
    exact hsame r hr
  · intro invalid later
    have hsublist := Tally.failures_sublist_append records later invalid
    refine ⟨hsublist, ?_⟩
    intro hfailed
    rw [status_eq_fail_iff] at hfailed ⊢
    intro hnone
    rw [hnone] at hsublist
    exact hfailed (List.sublist_nil.1 hsublist)

/-- Five files with records that take turns.  The larger allowlist has `b` in addition, and `z`,
which no record is of.  Later records bring `c`, which was clean before, in between. -/
theorem allowlist_acts_locally_interleaved :
    let region : Region := ⟨1, 1, 1, 2, "ERROR"⟩
    let records : List Record := [⟨⟨"a"⟩, some region, "a 1"⟩, ⟨⟨"c"⟩, none, "c"⟩,
      ⟨⟨"b"⟩, none, "b"⟩, ⟨⟨"d"⟩, some region, "d 1"⟩, ⟨⟨"b"⟩, some region, "b 1"⟩, .clean ⟨"e"⟩]
    let later : List Record := [⟨⟨"c"⟩, some region, "c 1"⟩]
    let small : FileSet := .ofList [⟨"a"⟩, ⟨"e"⟩]
    let large : FileSet := .ofList [⟨"a"⟩, ⟨"b"⟩, ⟨"e"⟩, ⟨"z"⟩]
    let same : FileSet := .ofList [⟨"a"⟩, ⟨"b"⟩, ⟨"e"⟩]
    (∀ f ∈ small, f ∈ large) ∧ (∀ r ∈ records, r.file ∈ large ↔ r.file ∈ same) ∧
      (ofRecords records small).tally.failures = [⟨"b"⟩, ⟨"d"⟩] ∧
      (ofRecords records large).tally.failures = [⟨"d"⟩] ∧
      (ofRecords (records ++ later) small).tally.failures = [⟨"c"⟩, ⟨"b"⟩, ⟨"d"⟩] ∧
      Finding.locatedOutside (fun f => f ∈ large ∧ f ∉ small) (ofRecords records small).findings =
        Finding.locatedOutside (fun f => f ∈ large ∧ f ∉ small)
          (ofRecords records large).findings ∧
      ofRecords records large = ofRecords records same ∧
      (ofRecords (records ++ later) small).status = .fail := by
  intro region records later small large same
  obtain ⟨hlarger, hcongr, hlater⟩ := allowlist_acts_locally records
  have hsubset : ∀ f ∈ small, f ∈ large := by
    intro f hf
    rw [FileSet.mem_ofList] at hf ⊢
    exact List.Sublist.subset (by decide) hf
  have hsame : ∀ r ∈ records, r.file ∈ large ↔ r.file ∈ same := by decide +kernel
  have hfailed : (ofRecords records small).status = .fail := by decide +kernel
  exact ⟨hsubset, hsame, by decide +kernel, by decide +kernel, by decide +kernel,
    (hlarger small large hsubset).2.1, hcongr large same hsame, (hlater small later).2 hfailed⟩

end Evaluation

end ParseAudit
