import ParseAudit.Proofs.Audit.Exactness
import ParseAudit.Proofs.Invocation.Records
import ParseAudit.Proofs.Selection.Resolved
/-!
# What a report says of the files

A check that succeeds has handed every file to the parser in exactly one call, and its report says
of each file what the output of that call says.

* `run_gives_iff`: the parts that a check is made of;
* `faithful_report`: the figures and the verdict of a report on records;
* `run_faithful`: every report of a check tells the truth.
-/

namespace ParseAudit.Check

open ParseAudit.Action Invocation
open FileTree (spot_root)
open Selection (resolve_eq_ok_ofList)

/-! ## Reports on records -/

/-- A report that counts and lists the files by what is known of them: whether they are on the
allowlist, and whether they have an error. -/
structure Faithful (report : Report) (targets invalid : FileSet) (hasError : RepoPath → Prop) :
    Prop where
  total : report.data.totalFiles.toNat = targets.size
  failures_nodup : report.data.failures.Nodup
  mem_failures : ∀ t, t ∈ report.data.failures ↔ t ∈ targets ∧ t ∉ invalid ∧ hasError t
  expectedInvalid :
    report.data.expectedInvalid.toNat = {t | t ∈ targets ∧ t ∈ invalid ∧ hasError t}.ncard
  successful : report.data.successful.toNat = {t | t ∈ targets ∧ ¬hasError t}.ncard
  violations_nodup : report.data.allowlistViolations.Nodup
  mem_violations : ∀ t, t ∈ report.data.allowlistViolations ↔
    t ∈ targets ∧ t ∈ invalid ∧ ¬hasError t
  fail_iff : report.verdict.status = .fail ↔ report.data.failures ≠ []
  warn_iff : report.verdict.status = .warn ↔
    report.data.failures = [] ∧ report.data.allowlistViolations ≠ []
  pass_iff : report.verdict.status = .pass ↔
    report.data.failures = [] ∧ report.data.allowlistViolations = []
  exitCode : report.verdict.status.exitCode = if report.data.failures = [] then 0 else 2

/-- The report on records with one file each for every file to check is faithful to them. -/
theorem faithful_report {records : List Record} {targets : FileSet} (invalid : FileSet)
    {hasError : RepoPath → Prop} (hfiles : ∀ t, t ∈ records.map Record.file ↔ t ∈ targets)
    (herrors : ∀ t, Erring records t ↔ hasError t) (hsize : targets.size < UInt32.size)
    (settings : Settings) (os : Option String) (clock : Clock) :
    Faithful ((Evaluation.ofRecords records invalid).report settings os clock) targets invalid
      hasError := by
  have hexact := Tally.exact_ofRecords records invalid
  have htotal : (Tally.ofRecords records invalid).total = targets.size := by
    have hperm : (filesOf records).Perm targets.toList := by
      refine (List.perm_ext_iff_of_nodup (nodup_filesOf records) targets.nodup_toList).2 ?_
      exact fun t => List.mem_eraseDups.trans (hfiles t)
    rw [Tally.total_ofRecords, hperm.length_eq]
    rfl
  obtain ⟨hfits, hsuccessful, hinvalid⟩ := Tally.toNat_summary (htotal ▸ hsize) settings
  constructor
  · exact hfits.trans htotal
  · exact hexact.failures.nodup
  · intro t
    show t ∈ (Tally.ofRecords records invalid).failures ↔ _
    rw [hexact.failures.mem_iff, hfiles, herrors]
  · refine hinvalid.trans ?_
    simp only [hexact.expectedInvalid, hfiles, herrors]
  · refine hsuccessful.trans ?_
    simp only [hexact.successful, hfiles, herrors]
  · exact hexact.allowlistViolations.nodup
  · intro t
    show t ∈ (Tally.ofRecords records invalid).allowlistViolations ↔ _
    rw [hexact.allowlistViolations.mem_iff, hfiles, herrors]
  · exact Tally.status_eq_fail_iff
  · exact Tally.status_eq_warn_iff
  · exact Tally.status_eq_pass_iff
  · show (Tally.ofRecords records invalid).status.exitCode =
      if (Tally.ofRecords records invalid).failures = [] then 0 else 2
    cases hstatus : (Tally.ofRecords records invalid).status with
    | fail => rw [if_neg (Tally.status_eq_fail_iff.1 hstatus)]; rfl
    | warn => rw [if_pos (Tally.status_eq_warn_iff.1 hstatus).1]; rfl
    | pass => rw [if_pos (Tally.status_eq_pass_iff.1 hstatus).1]; rfl

/-! ## Whole checks -/

variable {respond : Responder} {clock : Clock} {request : CheckRequest}

/-- A check succeeds exactly when its settings and both sets of files can be resolved and records
can be collected; its report is the report on these records. -/
theorem run_gives_iff {result : CheckResult} {tree tree' : FileTree} :
    (run respond clock request).Gives tree result tree' ↔
      ∃ settings targets invalid scanned,
        settingsOf request = .ok settings ∧
        (Selection.resolve tree request.workspace settings.files).outcome = .ok targets ∧
        (Selection.resolve tree request.workspace settings.invalidFiles).outcome = .ok invalid ∧
        (collect respond settings targets request.workspace).Gives tree scanned tree' ∧
        result = ⟨(Evaluation.ofRecords scanned.records invalid).report settings request.os clock,
          (Evaluation.ofRecords scanned.records invalid).tally, settings⟩ := by
  unfold run
  constructor
  · intro hrun
    obtain ⟨settings, _, hfirst, hselect⟩ := gives_bind_iff.1 hrun
    obtain ⟨hsettings, rfl⟩ := gives_ofExcept_iff.1 hfirst
    obtain ⟨targets, _, hlook, hlisted⟩ := gives_bind_iff.1 hselect
    obtain ⟨htargets, rfl⟩ := gives_look_iff.1 (gives_within_iff.1 hlook)
    obtain ⟨invalid, _, hlook', hcall⟩ :=
      gives_bind_iff.1 ((quiet_log _ _ _).gives_ite_iff.1 hlisted)
    obtain ⟨hinvalid, rfl⟩ := gives_look_iff.1 (gives_within_iff.1 hlook')
    obtain ⟨scanned, _, hscanned, hreport⟩ :=
      gives_bind_iff.1 ((quiet_log _ _ _).gives_bind_iff.1 hcall)
    dsimp only at hreport
    rw [(quiet_log _ _ _).gives_bind_iff, gives_pure_iff] at hreport
    obtain ⟨rfl, rfl⟩ := hreport
    exact ⟨settings, targets, invalid, scanned, hsettings, htargets, hinvalid, hscanned, rfl⟩
  · rintro ⟨settings, targets, invalid, scanned, hsettings, htargets, hinvalid, hscanned, rfl⟩
    refine gives_bind_iff.2 ⟨settings, tree, gives_ofExcept_iff.2 ⟨hsettings, rfl⟩, ?_⟩
    refine gives_bind_iff.2 ⟨targets, tree,
      gives_within_iff.2 (gives_look_iff.2 ⟨htargets, rfl⟩), ?_⟩
    refine (quiet_log _ _ _).gives_ite_iff.2 (gives_bind_iff.2 ⟨invalid, tree,
      gives_within_iff.2 (gives_look_iff.2 ⟨hinvalid, rfl⟩), ?_⟩)
    refine (quiet_log _ _ _).gives_bind_iff.2 (gives_bind_iff.2 ⟨scanned, tree', hscanned, ?_⟩)
    exact (quiet_log _ _ _).gives_bind_iff.2 (gives_pure_iff.2 ⟨rfl, rfl⟩)

/-- A check of known settings and files succeeds if records can be collected, with the data that
the report on them has. -/
theorem exists_run_of_collect {settings : Settings} {targets invalid : FileSet} {data : Summary}
    {tree : FileTree} (hsettings : settingsOf request = .ok settings)
    (htargets : (Selection.resolve tree request.workspace settings.files).outcome = .ok targets)
    (hinvalid :
      (Selection.resolve tree request.workspace settings.invalidFiles).outcome = .ok invalid)
    (hdata : ((collect respond settings targets request.workspace
      tree).traced.outcome.toOption.map fun scanned =>
        ((Evaluation.ofRecords scanned.records invalid).report settings request.os clock).data) =
          some data) :
    ∃ result, (run respond clock request tree).traced.outcome = .ok result ∧
      result.report.data = data := by
  cases hscanned : (collect respond settings targets request.workspace tree).traced.outcome with
  | error e =>
    rw [hscanned] at hdata
    cases hdata
  | ok scanned =>
    rw [hscanned] at hdata
    have hgives : (run respond clock request).Gives tree _ _ :=
      run_gives_iff.2 ⟨settings, targets, invalid, scanned, hsettings, htargets, hinvalid,
        gives_of_outcome hscanned, rfl⟩
    exact ⟨_, hgives.outcome, Option.some.inj hdata⟩

/-- Every report of a check tells the truth.  If a check succeeds, then its settings and both sets
of files can be resolved, each file to check was handed to the parser in exactly one call, and the
figures, the lists and the verdict of the report follow from what these calls say, whatever the
parser printed, whatever its exit status was and in whatever mode it was called. -/
theorem run_faithful (respond : Responder) (clock : Clock) (request : CheckRequest)
    (tree : FileTree) (result : CheckResult)
    (hok : (run respond clock request tree).traced.outcome = .ok result) :
    ∃ settings targets invalid calls last,
      settingsOf request = .ok settings ∧
      (Selection.resolve tree request.workspace settings.files).outcome = .ok targets ∧
      (Selection.resolve tree request.workspace settings.invalidFiles).outcome = .ok invalid ∧
      Exchanged respond settings request.workspace 0 tree calls last ∧
      calls.map Exchange.run = runsFor settings targets ∧
      (calls.map Exchange.run).flatten = targets.toList ∧
      (targets.size < UInt32.size →
        Faithful result.report targets invalid (HasError request.workspace calls)) := by
  obtain ⟨settings, targets, invalid, scanned, hsettings, htargets, hinvalid, hscanned, rfl⟩ :=
    run_gives_iff.1 (gives_of_outcome hok)
  obtain ⟨calls, outs, hruns, hcalls, hreads, rfl⟩ :=
    callRuns_gives_iff.1 (collect_gives_iff.1 hscanned)
  have hflatten : (calls.map Exchange.run).flatten = targets.toList := by
    rw [hruns, flatten_runsFor]
  refine ⟨settings, targets, invalid, calls, _, hsettings, htargets, hinvalid, hcalls, hruns,
    hflatten, ?_⟩
  intro hsize
  apply faithful_report invalid
  · intro t
    rw [← List.mem_eraseDups]
    show t ∈ filesOf _ ↔ _
    rw [mem_files_exchanges hreads, hflatten]
    rfl
  · exact fun t => anyError_iff.symm.trans (anyError_exchanges_iff hreads)
  · exact hsize

/-- A check of four files, of which `c.py` and `d.py` are on the allowlist: the parser reports an
error in `b.py` twice and one in `d.py`, says nothing of the others, and speaks of a file that was
not handed over. -/
theorem run_faithful_four :
    let respond : Responder := fun _ _ => Action.pure
      ⟨"b.py 1 ms (ERROR [0, 0] - [0, 1])\nb.py\nb.py (ERROR [4, 0] - [5, 1])\n" ++
        "d.py (MISSING x [2, 0] - [2, 0])\ne (ERROR [0, 0] - [0, 1])\n", some 1⟩
    let request : CheckRequest := ⟨"/", none, "", { Overrides.none with
      parser := some "p", files := ["*.py"], invalidFiles := ["c.py", "d.py"] }⟩
    let tree : FileTree := ⟨.directory (["a.py", "b.py", "c.py", "d.py", "e"].map fun name =>
      (Octets.ofText name, .file [] false)), []⟩
    let clock : Clock := ⟨default, default⟩
    ∃ result, (run respond clock request tree).traced.outcome = .ok result ∧
      result.report.data = ⟨"p", "batch", 4, 2, 1, [⟨"b.py"⟩], [⟨"c.py"⟩]⟩ ∧
      ∃ settings targets invalid calls last,
        settingsOf request = .ok settings ∧
        (Selection.resolve tree request.workspace settings.files).outcome = .ok targets ∧
        (Selection.resolve tree request.workspace settings.invalidFiles).outcome = .ok invalid ∧
        Exchanged respond settings request.workspace 0 tree calls last ∧
        calls.map Exchange.run = runsFor settings targets ∧
        (calls.map Exchange.run).flatten = targets.toList ∧
        (targets.size < UInt32.size →
          Faithful result.report targets invalid (HasError request.workspace calls)) := by
  intro respond request tree clock
  let settings : Settings :=
    ⟨⟨⟨["*.py"], none, .patterns⟩, ⟨["c.py", "d.py"], none, .patterns⟩⟩, "p", ["parse", "-q", "-t"],
      .batch, 50⟩
  let targets : FileSet := .ofList [⟨"a.py"⟩, ⟨"b.py"⟩, ⟨"c.py"⟩, ⟨"d.py"⟩]
  let invalid : FileSet := .ofList [⟨"c.py"⟩, ⟨"d.py"⟩]
  have hsettings : settingsOf request = .ok settings := by decide +kernel
  have htargets : (Selection.resolve tree "/" settings.files).outcome = .ok targets := by
    apply resolve_eq_ok_ofList
    unfold Selection.resolve Selection.expand Selection.visits
    rw [spot_root]
    decide +kernel
  have hinvalid : (Selection.resolve tree "/" settings.invalidFiles).outcome = .ok invalid := by
    apply resolve_eq_ok_ofList
    unfold Selection.resolve Selection.expand Selection.visits
    rw [spot_root]
    decide +kernel
  have hcollect : ((collect respond settings targets request.workspace
      tree).traced.outcome.toOption.map fun o =>
        ((Evaluation.ofRecords o.records invalid).report settings none clock).data) =
          some ⟨"p", "batch", 4, 2, 1, [⟨"b.py"⟩], [⟨"c.py"⟩]⟩ := by decide +kernel
  cases hscanned : (collect respond settings targets request.workspace tree).traced.outcome with
  | error e =>
    rw [hscanned] at hcollect
    cases hcollect
  | ok scanned =>
    rw [hscanned] at hcollect
    have hgives : (run respond clock request).Gives tree _ _ :=
      run_gives_iff.2 ⟨settings, targets, invalid, scanned, hsettings, htargets, hinvalid,
        gives_of_outcome hscanned, rfl⟩
    exact ⟨_, hgives.outcome, Option.some.inj hcollect,
      run_faithful respond clock request tree _ hgives.outcome⟩

end ParseAudit.Check
