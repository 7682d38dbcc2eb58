import ParseAudit.Proofs.Audit.Exactness
import Mathlib.Algebra.Order.BigOperators.Group.List
import Mathlib.Data.List.Forall2
/-!
# Findings, counts and the verdict

The findings of an evaluation, their counts, its tally and its verdict are put together apart from
one another.  Here they are shown to agree, by what the records say of each file.

* `findingsFor_ofGroup`: the findings for one file;
* `eraseDups_paths`: the files with a finding of the gravest kind are those that fail;
* `length_findings_le`: there are no more findings than records;
* `evaluation_consistent`: all of an evaluation tells one story.
-/

namespace ParseAudit

open FileGroup

/-- The records of a file that carry an error node, in their order. -/
def errorsOf (records : List Record) (f : RepoPath) : List Record :=
  records.filter fun r => decide (r.file = f) && r.hasError

theorem errorsOf_eq_nil_iff {records : List Record} {f : RepoPath} :
    errorsOf records f = [] ↔ ¬Erring records f := by
  unfold errorsOf Erring
  rw [List.filter_eq_nil_iff]
  simp only [Bool.and_eq_true, decide_eq_true_eq, not_exists, not_and]

namespace FileGroup

/-- The errors of a group are the errors of its file. -/
theorem errors_of_mem {records : List Record} {g : FileGroup} (hg : g ∈ ofRecords records) :
    g.errors = errorsOf records g.file := by
  unfold errors errorsOf
  rw [records_of_mem_ofRecords hg, List.filter_filter]
  apply List.filter_congr
  intro r _
  exact Bool.and_comm _ _

/-- Grouping loses no record and adds none. -/
theorem flatMap_records_perm (records : List Record) :
    ((ofRecords records).flatMap FileGroup.records).Perm records := by
  induction records using List.reverseRecOn with
  | nil => exact List.Perm.nil
  | append_singleton records r ih =>
    rw [ofRecords_concat]
    refine List.Perm.trans ?_ (ih.append_right [r])
    by_cases h : r.file ∈ (ofRecords records).map file
    · obtain ⟨front, g, back, hsplit, hfront, hg⟩ := exists_split_of_mem h
      rw [hsplit, add_of_mem hfront hg, List.flatMap_append, List.flatMap_append,
        List.flatMap_cons, List.flatMap_cons, records_extend, List.append_assoc, List.append_assoc]
      refine List.Perm.append_left _ ?_
      rw [List.append_assoc]
      exact List.Perm.append_left _ List.perm_append_comm
    · rw [add_of_not_mem h, List.flatMap_append]
      exact List.Perm.refl _

end FileGroup

/-! ## The findings for one file -/

namespace Finding

/-- A finding that tells of the error node of a record: where it lies, with columns only if it lies
within one line, and what the record says of it. -/
structure TellsOf (severity : Severity) (code : String) (r : Record) (finding : Finding) :
    Prop where
  severity_eq : finding.severity = severity
  code_eq : finding.code = code
  node : ∃ region, r.region = some region ∧
    finding.location = some {
      path := r.file
      line := some region.startLine
      column := if region.startLine = region.endLine then some region.startColumn else none
      endLine := some region.endLine
      endColumn := if region.startLine = region.endLine then some region.endColumn else none } ∧
    finding.data = .obj [("label", .str region.label), ("raw", .str r.raw)]

/-- The findings for a file: one for each of its errors, or one if it is on the allowlist and has
none. -/
inductive FindingsFor (records : List Record) (invalid : FileSet) (f : RepoPath) :
    List Finding → Prop where
  /-- Each error in a file that is not on the allowlist is an error. -/
  | unlisted {findings : List Finding} (hlisted : f ∉ invalid)
      (each : List.Forall₂ (TellsOf .error "parse_error") (errorsOf records f) findings) :
      FindingsFor records invalid f findings
  /-- Each error in a file of the allowlist is a warning. -/
  | listed {findings : List Finding} (hlisted : f ∈ invalid) (herring : Erring records f)
      (each : List.Forall₂ (TellsOf .warning "expected_invalid") (errorsOf records f) findings) :
      FindingsFor records invalid f findings
  /-- A file of the allowlist without an error is a warning itself. -/
  | stale {finding : Finding} (hlisted : f ∈ invalid) (hclean : ¬Erring records f)
      (severity_eq : finding.severity = .warning) (code_eq : finding.code = "allowlist_violation")
      (location_eq : finding.location = some (.ofFile f)) :
      FindingsFor records invalid f [finding]

theorem tellsOf_ofErrorNode {severity : Severity} {code title : String} {r : Record}
    (h : r.hasError = true) : TellsOf severity code r (ofErrorNode severity code title r) := by
  obtain ⟨region, hregion⟩ := Option.isSome_iff_exists.1 h
  refine ⟨rfl, rfl, region, hregion, ?_, ?_⟩
  · unfold ofErrorNode Region.location Region.isMultiline
    rw [hregion]
    by_cases hline : region.startLine = region.endLine <;> simp [hline]
  · unfold ofErrorNode labelOf
    rw [hregion]

/-- Findings for the errors of a file tell of these errors. -/
theorem forall₂_tellsOf {severity : Severity} {code title : String} {records : List Record}
    {f : RepoPath} :
    List.Forall₂ (TellsOf severity code) (errorsOf records f)
      ((errorsOf records f).map (ofErrorNode severity code title)) := by
  rw [List.forall₂_map_right_iff, List.forall₂_same]
  intro r hr
  have herror := (List.mem_filter.1 hr).2
  rw [Bool.and_eq_true] at herror
  exact tellsOf_ofErrorNode herror.2

/-- The findings for a group are the findings for its file. -/
theorem findingsFor_ofGroup {records : List Record} {invalid : FileSet} {g : FileGroup}
    (hg : g ∈ ofRecords records) : FindingsFor records invalid g.file (ofGroup invalid g) := by
  unfold ofGroup
  rw [outcome_of_mem hg, errors_of_mem hg]
  by_cases hlisted : g.file ∈ invalid
  · rw [FileSet.contains_iff.2 hlisted]
    by_cases herring : Erring records g.file
    · rw [anyError_iff.2 herring]
      exact .listed hlisted herring forall₂_tellsOf
    · rw [Bool.eq_false_iff.2 fun h => herring (anyError_iff.1 h)]
      exact .stale hlisted herring rfl rfl rfl
  · rw [Bool.eq_false_iff.2 fun h => hlisted (FileSet.contains_iff.1 h)]
    by_cases herring : Erring records g.file
    · rw [anyError_iff.2 herring]
      exact .unlisted hlisted forall₂_tellsOf
    · rw [Bool.eq_false_iff.2 fun h => herring (anyError_iff.1 h)]
      refine .unlisted hlisted ?_
      rw [errorsOf_eq_nil_iff.2 herring]
      exact .nil

/-- A file has one finding at most for each of its records. -/
theorem length_ofGroup_le (invalid : FileSet) (g : FileGroup) :
    (ofGroup invalid g).length ≤ g.records.length := by
  have herrors : g.errors.length ≤ g.records.length := List.length_filter_le _ _
  unfold ofGroup
  cases g.outcome invalid with
  | success => exact Nat.zero_le _
  | unexpectedFailure => simpa using herrors
  | expectedInvalid => simpa using herrors
  | allowlistViolation => exact Nat.succ_le_succ (Nat.zero_le g.others.length)

/-- No finding is only a remark. -/
theorem severity_ne_info {invalid : FileSet} {g : FileGroup} {finding : Finding}
    (h : finding ∈ ofGroup invalid g) : finding.severity ≠ .info := by
  unfold ofGroup at h
  cases houtcome : g.outcome invalid with
  | success => simp [houtcome] at h
  | unexpectedFailure =>
    rw [houtcome] at h
    obtain ⟨r, -, rfl⟩ := List.mem_map.1 h
    exact nofun
  | expectedInvalid =>
    rw [houtcome] at h
    obtain ⟨r, -, rfl⟩ := List.mem_map.1 h
    exact nofun
  | allowlistViolation =>
    rw [houtcome, List.mem_singleton] at h
    subst h
    exact nofun

/-! ## Errors among the findings -/

/-- The findings of the gravest kind. -/
def errorsAmong (findings : List Finding) : List Finding :=
  findings.filter fun finding => finding.severity = .error

/-- The paths that findings point to. -/
def paths (findings : List Finding) : List RepoPath :=
  findings.filterMap fun finding => finding.location.map Location.path

/-- Of the findings for a group those of the gravest kind are its errors, if the group fails. -/
theorem errorsAmong_ofGroup (invalid : FileSet) (g : FileGroup) :
    errorsAmong (ofGroup invalid g) =
      if g.outcome invalid = .unexpectedFailure then g.errors.map parseError else [] := by
  have hall : ∀ finding ∈ g.errors.map parseError, decide (finding.severity = .error) = true := by
    intro finding h
    obtain ⟨r, -, rfl⟩ := List.mem_map.1 h
    rfl
  have hnone : ∀ finding ∈ g.errors.map expectedInvalid,
      ¬decide (finding.severity = .error) = true := by
    intro finding h
    obtain ⟨r, -, rfl⟩ := List.mem_map.1 h
    exact Bool.false_ne_true
  unfold errorsAmong ofGroup
  cases g.outcome invalid with
  | success => rfl
  | unexpectedFailure => exact List.filter_eq_self.2 hall
  | expectedInvalid => exact List.filter_eq_nil_iff.2 hnone
  | allowlistViolation => rfl

/-- Of the findings for some groups those of the gravest kind are the errors of the groups that
fail. -/
theorem errorsAmong_flatMap (groups : List FileGroup) (invalid : FileSet) :
    errorsAmong (groups.flatMap (ofGroup invalid)) =
      (groups.filter fun g => g.outcome invalid = .unexpectedFailure).flatMap
        fun g => g.errors.map parseError := by
  induction groups with
  | nil => rfl
  | cons g groups ih =>
    have hcons : errorsAmong ((g :: groups).flatMap (ofGroup invalid)) =
        errorsAmong (ofGroup invalid g) ++ errorsAmong (groups.flatMap (ofGroup invalid)) := by
      rw [List.flatMap_cons]
      exact List.filter_append _ _
    rw [hcons, ih, errorsAmong_ofGroup]
    by_cases hfails : g.outcome invalid = .unexpectedFailure
    · rw [if_pos hfails, List.filter_cons_of_pos (by simpa using hfails), List.flatMap_cons]
    · rw [if_neg hfails, List.filter_cons_of_neg (by simpa using hfails), List.nil_append]

/-- A finding for an error node points to the file of the record. -/
theorem path_ofErrorNode (severity : Severity) (code title : String) (r : Record) :
    (ofErrorNode severity code title r).location.map Location.path = some r.file := by
  unfold ofErrorNode
  cases r.region with
  | none => rfl
  | some region => rfl

/-- The findings for some errors point to the files of the records. -/
theorem paths_map_parseError (rs : List Record) :
    paths (rs.map parseError) = rs.map Record.file := by
  unfold paths
  rw [List.filterMap_map, ← List.filterMap_eq_map]
  exact List.filterMap_congr fun r _ =>
    path_ofErrorNode .error parseErrorCode "Parsing error" r

end Finding

namespace Evaluation

open Finding

/-- A group that fails has an error. -/
theorem errors_ne_nil {g : FileGroup} {invalid : FileSet}
    (h : g.outcome invalid = .unexpectedFailure) : g.errors ≠ [] := by
  intro hnil
  have herror := hasError_decisive g
  unfold outcome Outcome.ofRecord at h
  rw [herror, hnil] at h
  cases hlisted : invalid.contains g.decisive.file <;> rw [hlisted] at h <;> cases h

/-- The files that the findings of the gravest kind point to are those that fail, in order. -/
theorem eraseDups_paths (records : List Record) (invalid : FileSet) :
    (paths (errorsAmong (ofRecords records invalid).findings)).eraseDups =
      (Tally.ofRecords records invalid).failures := by
  unfold Tally.ofRecords
  rw [Tally.ofGroups_eq]
  show (paths (errorsAmong ((FileGroup.ofRecords records).flatMap (ofGroup invalid)))).eraseDups = _
  rw [errorsAmong_flatMap]
  have hpaths : ∀ groups : List FileGroup, paths (groups.flatMap fun g => g.errors.map parseError) =
      groups.flatMap fun g => g.errors.map Record.file := by
    intro groups
    unfold paths
    rw [List.filterMap_flatMap]
    exact List.flatMap_congr fun g _ => paths_map_parseError g.errors
  rw [hpaths]
  apply eraseDups_flatMap
  · have hnodup := nodup_filesOf records
    rw [← map_file_ofRecords] at hnodup
    exact hnodup.sublist (List.filter_sublist.map _)
  · intro g hg
    obtain ⟨hmem, hfails⟩ := List.mem_filter.1 hg
    refine ⟨by simpa using errors_ne_nil (by simpa using hfails), ?_⟩
    intro f hf
    obtain ⟨r, hr, rfl⟩ := List.mem_map.1 hf
    exact file_of_mem_records hmem (List.mem_filter.1 hr).1

/-- There are no more findings than records. -/
theorem length_findings_le (records : List Record) (invalid : FileSet) :
    (ofRecords records invalid).findings.length ≤ records.length := by
  calc (ofRecords records invalid).findings.length
      = ((FileGroup.ofRecords records).map fun g => (ofGroup invalid g).length).sum :=
        List.length_flatMap
    _ ≤ ((FileGroup.ofRecords records).map fun g => g.records.length).sum :=
        List.sum_le_sum fun g _ => length_ofGroup_le invalid g
    _ = ((FileGroup.ofRecords records).flatMap FileGroup.records).length :=
        List.length_flatMap.symm
    _ = records.length := (flatMap_records_perm records).length_eq

/-- An evaluation whose parts agree with one another and with what the records say. -/
structure Consistent (e : Evaluation) (records : List Record) (invalid : FileSet) : Prop where
  tally : e.tally = Tally.ofRecords records invalid
  /-- File by file, in the order in which the files are first seen. -/
  findings : ∃ files parts, FirstSeen (records.map Record.file) (fun _ => True) files ∧
    List.Forall₂ (FindingsFor records invalid) files parts ∧ e.findings = parts.flatten
  error : e.counts.error = (errorsAmong e.findings).length
  warning : e.counts.warning = (e.findings.filter fun f => f.severity = .warning).length
  info : e.counts.info = (e.findings.filter fun f => f.severity = .info).length
  info_eq_zero : e.counts.info = 0
  fail_iff : e.status = .fail ↔ 0 < e.counts.error
  failures_iff : e.tally.failures ≠ [] ↔ 0 < e.counts.error
  failures : FirstSeen (paths (errorsAmong e.findings)) (fun _ => True) e.tally.failures
  /-- The counts fit into the 32 bits that a report has for them. -/
  counts : e.verdict.counts.error.toNat = e.counts.error ∧
    e.verdict.counts.warn.toNat = e.counts.warning ∧ e.verdict.counts.info.toNat = e.counts.info

/-- A file fails exactly if there is a finding of the gravest kind. -/
theorem failures_ne_nil_iff (records : List Record) (invalid : FileSet) :
    (Tally.ofRecords records invalid).failures ≠ [] ↔
      0 < (ofRecords records invalid).counts.error := by
  have hcount : (ofRecords records invalid).counts.error =
      (errorsAmong (ofRecords records invalid).findings).length := List.countP_eq_length_filter
  rw [hcount, List.length_pos_iff]
  show _ ↔ errorsAmong ((FileGroup.ofRecords records).flatMap (ofGroup invalid)) ≠ []
  unfold Tally.ofRecords
  rw [Tally.ofGroups_eq, errorsAmong_flatMap, not_iff_not, List.map_eq_nil_iff,
    List.flatMap_eq_nil_iff]
  constructor
  · intro h
    rw [h]
    exact nofun
  · intro h
    rw [List.eq_nil_iff_forall_not_mem]
    intro g hg
    have hfails := (List.mem_filter.1 hg).2
    exact errors_ne_nil (by simpa using hfails) (List.map_eq_nil_iff.1 (h g hg))

/-- The findings, their counts, the tally and the verdict of an evaluation tell one story. -/
theorem evaluation_consistent (records : List Record) (invalid : FileSet)
    (hfew : records.length < UInt32.size) :
    (ofRecords records invalid).Consistent records invalid where
  tally := rfl
  findings := by
    refine ⟨filesOf records, (FileGroup.ofRecords records).map (ofGroup invalid),
      firstSeen_filesOf records, ?_, List.flatMap_def⟩
    rw [← map_file_ofRecords, List.forall₂_map_left_iff, List.forall₂_map_right_iff,
      List.forall₂_same]
    exact fun g hg => findingsFor_ofGroup hg
  error := List.countP_eq_length_filter
  warning := List.countP_eq_length_filter
  info := List.countP_eq_length_filter
  info_eq_zero := by
    show List.countP _ _ = 0
    rw [List.countP_eq_zero]
    intro finding h
    obtain ⟨g, -, hg⟩ := List.mem_flatMap.1 h
    simpa using severity_ne_info hg
  fail_iff := Tally.status_eq_fail_iff.trans (failures_ne_nil_iff records invalid)
  failures_iff := failures_ne_nil_iff records invalid
  failures := eraseDups_paths records invalid ▸ firstSeen_eraseDups _
  counts := by
    have hfits : ∀ p : Finding → Bool,
        (UInt32.ofNat ((ofRecords records invalid).findings.countP p)).toNat =
          (ofRecords records invalid).findings.countP p := by
      intro p
      apply UInt32.toNat_ofNat_of_lt'
      calc (ofRecords records invalid).findings.countP p
          ≤ (ofRecords records invalid).findings.length := List.countP_le_length
        _ ≤ records.length := length_findings_le records invalid
        _ < UInt32.size := hfew
    exact ⟨hfits _, hfits _, hfits _⟩

/-- Four files, of which `a` and `c` are on the allowlist: two errors in `b`, one over several
lines, with an error in `a` and a clean line between them, a clean `c` and a clean `d`. -/
theorem evaluation_consistent_mixed :
    let records : List Record := [⟨⟨"b"⟩, some ⟨1, 1, 1, 2, "ERROR"⟩, "b (1)"⟩,
      ⟨⟨"a"⟩, some ⟨3, 1, 3, 1, "MISSING"⟩, "a (1)"⟩, ⟨⟨"b"⟩, none, "b"⟩,
      ⟨⟨"b"⟩, some ⟨2, 5, 4, 1, "ERROR"⟩, "b (2)"⟩, .clean ⟨"c"⟩, .clean ⟨"d"⟩]
    let invalid : FileSet := .ofList [⟨"a"⟩, ⟨"c"⟩]
    records.length < UInt32.size ∧
      (ofRecords records invalid).counts = ⟨0, 2, 2⟩ ∧
      (ofRecords records invalid).tally.failures = [⟨"b"⟩] ∧
      (ofRecords records invalid).Consistent records invalid := by
  intro records invalid
  have hfew : records.length < UInt32.size := by decide
  exact ⟨hfew, by decide +kernel, by decide +kernel, evaluation_consistent records invalid hfew⟩

end Evaluation

end ParseAudit
