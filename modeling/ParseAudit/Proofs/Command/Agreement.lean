import ParseAudit.Proofs.Report.Artifact
import ParseAudit.Proofs.Tree.Keeping
/-!
# Exit codes and reports agree

A check leaves its exit code and its report, and whoever looks at one of them learns what the other
one says.  Two things could come in between.  What is written after the report could change it; but
other files only change what their own paths lead to.  And a check can fail after its report was
written, say because the console refuses a line; but then the report is replaced by one on the
failure.

* `exists_run_of_checkBody`: what a check that gets to its exit code has written, in which order;
* `fails_of_afterReport`: a check that fails later than that;
* `runCheck_gives_iff`, `runProgram_of_fails`: what becomes of a check whose body fails;
* `Agrees`: what each exit code says of a report;
* `report_agrees`: the report that is left agrees with the exit code, whatever happened.
-/

namespace ParseAudit

open ParseAudit.Action

/-- Files that fail are a reason. -/
theorem Tally.parseErrors_mem_reasons {t : Tally} (h : t.failures ≠ []) :
    Verdict.parseErrors ∈ t.reasons := by
  unfold reasons
  rw [if_neg (List.isEmpty_iff.not.2 h)]
  exact List.mem_append_left _ (List.mem_append_left _ (List.mem_singleton_self _))

/-! ## What is written after the report -/

namespace Publish

theorem writesOnly_append (path text : String) : (append path text).WritesOnly [path] :=
  writesOnly_modify _ path _

theorem writesOnly_appendJobOutput (r : Report) (path : String) :
    (appendJobOutput r path).WritesOnly [path] :=
  ((writesOnly_append path _).within _).bind fun _ => (quiet_log _ _ _).writesOnly

theorem writesOnly_appendStepSummary (r : Report) (path : String) :
    (appendStepSummary r path).WritesOnly [path] :=
  ((writesOnly_append path _).within _).bind fun _ => (quiet_log _ _ _).writesOnly

theorem writesOnly_withPath {f : String → Action Unit} (hf : ∀ path, (f path).WritesOnly [path])
    (path : Option String) : (withPath path f).WritesOnly path.toList := by
  cases path with
  | none => exact quiet_pure.writesOnly
  | some path => exact hf path

theorem writesOnly_run (console : Console) (d : Destinations) (r : Report) :
    (run console d r).WritesOnly (d.jobOutput.toList ++ d.stepSummary.toList) := by
  intro tree a tree' h
  obtain ⟨-, -, mid, hjob, hsummary⟩ := run_gives_iff.1 h
  have hfirst := writesOnly_withPath (writesOnly_appendJobOutput r) d.jobOutput _ _ _ hjob
  exact hfirst.trans (writesOnly_withPath (writesOnly_appendStepSummary r) _ _ _ _ hsummary)

end Publish

/-- The files that a check writes beside its report. -/
def CheckOptions.outputs (o : CheckOptions) : List String :=
  (if o.writeMarkdown then [o.markdownOut] else []) ++
    (o.jobOutput.toList ++ o.stepSummary.toList)

namespace CommandLine

variable {s : Surroundings} {line : CommandLine} {o : CheckOptions} {root : String}
  {t t' : FileTree} {code : UInt32}

/-- What a check does once its report was written. -/
def afterReport (s : Surroundings) (o : CheckOptions) (result : CheckResult) : Action UInt32 := do
  if o.writeMarkdown then
    (writeFile "write text" o.markdownOut result.report.view.markdown).within "write markdown"
  (Publish.run s.console ⟨o.jobOutput, o.stepSummary, result.settings.maxAnnotations⟩
    result.report).within "publish results"
  return result.report.verdict.status.exitCode

/-- All that is written then is among the other outputs. -/
theorem keepsBut_of_afterReport {result : CheckResult}
    (h : (afterReport s o result).Gives t code t') :
    t.KeepsBut o.outputs t' ∧ code = result.report.verdict.status.exitCode := by
  have hpublish := (Publish.writesOnly_run s.console
    ⟨o.jobOutput, o.stepSummary, result.settings.maxAnnotations⟩ result.report).within
    "publish results"
  unfold afterReport at h
  unfold CheckOptions.outputs
  cases hmarkdown : o.writeMarkdown with
  | false =>
    rw [hmarkdown] at h
    obtain ⟨_, _, hpublished, hcode⟩ := gives_bind_iff.1 h
    obtain ⟨rfl, rfl⟩ := gives_pure_iff.1 hcode
    exact ⟨hpublish _ _ _ hpublished, rfl⟩
  | true =>
    rw [hmarkdown] at h
    obtain ⟨_, _, hrendered, h⟩ := gives_bind_iff.1 h
    obtain ⟨_, _, hpublished, hcode⟩ := gives_bind_iff.1 h
    obtain ⟨rfl, rfl⟩ := gives_pure_iff.1 hcode
    have hrender := writesOnly_writeFile _ _ _ _ _ _ (gives_within_iff.1 hrendered)
    exact ⟨hrender.trans (hpublish _ _ _ hpublished), rfl⟩

/-- A check that gets to the exit code for a verdict has written the report with this verdict, and
only other outputs after it. -/
theorem exists_run_of_checkBody (h : (checkBody s line o root).Gives t code t') :
    ∃ document result checked written, (line.document root t).outcome = .ok document ∧
      (Check.run s.responder s.clock ⟨root, labelOf o.osName, document, o.overrides⟩).Gives t result
        checked ∧
      (writeReport o.reportOut result.report).Gives checked () written ∧
      written.KeepsBut o.outputs t' ∧ code = result.report.verdict.status.exitCode := by
  unfold checkBody at h
  obtain ⟨found, _, hlook, hfound⟩ := gives_bind_iff.1 h
  obtain ⟨-, rfl⟩ := gives_look_iff.1 hlook
  cases found with
  | false =>
    obtain ⟨_, _, hfail, -⟩ := gives_bind_iff.1 hfound
    cases hfail.outcome
  | true =>
    obtain ⟨document, _, hdocument, hread⟩ := gives_bind_iff.1 hfound
    obtain ⟨hdocument, rfl⟩ := gives_look_iff.1 hdocument
    obtain ⟨result, checked, hresult, hreport⟩ := gives_bind_iff.1 hread
    obtain ⟨_, written, hwrite, hlog⟩ := gives_bind_iff.1 hreport
    have hafter : (afterReport s o result).Gives written code t' :=
      (quiet_log _ _ _).gives_bind_iff.1 hlog
    exact ⟨document, result, checked, written, hdocument, hresult, gives_within_iff.1 hwrite,
      keepsBut_of_afterReport hafter⟩

/-! ## A check that fails -/

/-- A settings document that is not there is blank. -/
theorem document_of_missing {e : FileError}
    (h : t.nodeOf (RepoPath.joinText root line.options.config) = .error e) :
    (line.document root t).outcome = .ok "" := by
  unfold document
  dsimp only
  rw [FileTree.readText_eq_error h]
  rfl

/-- A check can fail once its report was written. -/
theorem fails_of_afterReport {document : String} {result : CheckResult}
    {checked written left : FileTree} {e : Failure} (hfound : t.isDirectory root = true)
    (hdocument : (line.document root t).outcome = .ok document)
    (hrun : (Check.run s.responder s.clock
      ⟨root, labelOf o.osName, document, o.overrides⟩).Gives t result checked)
    (hwrite : (writeReport o.reportOut result.report).Gives checked () written)
    (hafter : (afterReport s o result).Fails written e ∧
      (afterReport s o result written).tree = left) :
    (checkBody s line o root).Fails t e ∧ (checkBody s line o root t).tree = left := by
  have hlook : (look fun t => return t.isDirectory root).Gives t true t :=
    gives_look_iff.2 ⟨congrArg Except.ok hfound, rfl⟩
  have hread : (look (line.document root)).Gives t document t := gives_look_iff.2 ⟨hdocument, rfl⟩
  unfold checkBody
  refine hlook.fails_bind (hread.fails_bind (hrun.fails_bind ?_))
  refine (gives_within_iff.2 hwrite).fails_bind ?_
  exact (quiet_log _ _ _ written).fails_bind hafter

/-- Once the report on a failure was written, the exit code is 1. -/
theorem reportFailure_gives {e : Failure}
    (h : (writeReport o.reportOut
      (Check.failureReport e (labelOf o.osName) s.clock.stop)).Gives t () t') :
    (reportFailure s o e).Gives t 1 t' := by
  unfold reportFailure
  rw [(quiet_log _ _ _).gives_bind_iff, h.attempt.gives_bind_iff,
    (quiet_remarkLine _).gives_bind_iff]
  exact gives_pure_iff.2 ⟨rfl, rfl⟩

/-- A check ends with what its body ends with, or with the report on its failure, made in the tree
that the body leaves. -/
theorem runCheck_gives_iff :
    (runCheck s line o).Gives t code t' ↔
      (checkBody s line o (line.workspace t)).Gives t code t' ∨
        ∃ e, (checkBody s line o (line.workspace t)).Fails t e ∧
          (reportFailure s o e).Gives (checkBody s line o (line.workspace t) t).tree code t' := by
  have hlook : (look fun t => return line.workspace t).Gives t (line.workspace t) t := ⟨rfl, rfl⟩
  unfold runCheck
  rw [hlook.gives_bind_iff]
  cases hbody : (checkBody s line o (line.workspace t) t).traced.outcome with
  | ok code' =>
    have hgives := gives_of_outcome hbody
    rw [hgives.attempt.gives_bind_iff]
    constructor
    · intro hcode
      obtain ⟨rfl, rfl⟩ := gives_pure_iff.1 hcode
      exact .inl hgives
    · rintro (hgives' | ⟨e, hfails, -⟩)
      · obtain ⟨rfl, rfl⟩ := hgives.unique hgives'
        exact gives_pure_iff.2 ⟨rfl, rfl⟩
      · exact absurd hfails hgives.not_fails
  | error e =>
    rw [(Fails.attempt hbody).gives_bind_iff]
    constructor
    · exact fun hreport => .inr ⟨e, hbody, hreport⟩
    · rintro (hgives | ⟨e', hfails, hreport⟩)
      · exact absurd hbody hgives.not_fails
      · cases hfails.symm.trans hbody
        exact hreport

/-- What a check leaves is what the program leaves. -/
theorem runProgram_of_runCheck {words : List String}
    (hread : read s.environment words = .ok line) (hcheck : line.command = .check o)
    (h : (runCheck s line o).Gives t code t') :
    (runProgram s t words).tree = t' ∧ (runProgram s t words).exitCode = code := by
  have hrun : (line.run s).Gives t code t' := by
    unfold CommandLine.run
    rw [(quiet_log _ _ _).gives_bind_iff, hcheck]
    exact h
  unfold runProgram
  rw [hread]
  unfold RunResult.ofEffect
  dsimp only
  rw [hrun.outcome]
  exact ⟨hrun.left, rfl⟩

/-- A check that failed leaves the report on its failure and the exit code 1. -/
theorem runProgram_of_fails {words : List String} {e : Failure}
    (hread : read s.environment words = .ok line) (hcheck : line.command = .check o)
    (hbody : (checkBody s line o (line.workspace t)).Fails t e)
    (hwrite : (writeReport o.reportOut
      (Check.failureReport e (labelOf o.osName) s.clock.stop)).Gives
        (checkBody s line o (line.workspace t) t).tree () t') :
    (runProgram s t words).tree = t' ∧ (runProgram s t words).exitCode = 1 :=
  runProgram_of_runCheck hread hcheck
    (runCheck_gives_iff.2 (.inr ⟨e, hbody, reportFailure_gives hwrite⟩))

/-! ## The whole run -/

/-- A check that is started from a tree makes this report, if it gets that far. -/
def Makes (s : Surroundings) (line : CommandLine) (o : CheckOptions) (t : FileTree) (r : Report) :
    Prop :=
  ∃ document result, (line.document (line.workspace t) t).outcome = .ok document ∧
    (Check.run s.responder s.clock ⟨line.workspace t, labelOf o.osName, document, o.overrides⟩
      t).traced.outcome = .ok result ∧ r = result.report

/-- What an exit code says of a report, where `Made` holds of the report that a check made and
`Failed` of what it failed with. -/
structure Agrees (Made : Report → Prop) (Failed : Failure → Prop) (code : UInt32) (r : Report) :
    Prop where
  known : code = 0 ∨ code = 1 ∨ code = 2
  passed : code = 0 → Made r ∧ (r.verdict.status = .pass ∨ r.verdict.status = .warn)
  failed : code = 2 → Made r ∧ r.verdict.status = .fail ∧ r.data.failures ≠ [] ∧
    Verdict.parseErrors ∈ r.verdict.reasons
  /-- The only finding tells of the failure with all its causes, and there is no data. -/
  broken : code = 1 → ∃ e finding, Failed e ∧ r.verdict.status = .fail ∧
    r.verdict.reasons = [Verdict.toolError] ∧ r.findings = [finding] ∧
    finding.checkId = Finding.runtimeCheck ∧ finding.message = ": ".intercalate e.chain ∧
    r.data = ⟨"", "", 0, 0, 0, [], []⟩
  /-- No failure is passed over. -/
  unbroken : code ≠ 1 → ∀ e, ¬Failed e

section Agreement

variable {Made : Report → Prop} {Failed : Failure → Prop}

/-- The report of a check agrees with the exit code for its verdict. -/
theorem agrees_of_run {respond : Responder} {clock : Clock} {request : CheckRequest}
    {result : CheckResult} (h : (Check.run respond clock request).Gives t result t')
    (hmade : Made result.report) (hfails : ∀ e, ¬Failed e) :
    Agrees Made Failed result.report.verdict.status.exitCode result.report := by
  obtain ⟨settings, targets, invalid, scanned, -, -, -, -, rfl⟩ := Check.run_gives_iff.1 h
  let tally := Tally.ofRecords scanned.records invalid
  show Agrees Made Failed tally.status.exitCode _
  cases hstatus : tally.status with
  | pass => exact ⟨.inl rfl, fun _ => ⟨hmade, .inl hstatus⟩, nofun, nofun, fun _ => hfails⟩
  | warn => exact ⟨.inl rfl, fun _ => ⟨hmade, .inr hstatus⟩, nofun, nofun, fun _ => hfails⟩
  | fail =>
    have hfailures := Tally.status_eq_fail_iff.1 hstatus
    have hreason := Tally.parseErrors_mem_reasons hfailures
    exact ⟨.inr (.inr rfl), nofun, fun _ => ⟨hmade, hstatus, hfailures, hreason⟩, nofun,
      fun _ => hfails⟩

/-- The report on a failure agrees with the exit code 1. -/
theorem agrees_failureReport (e : Failure) (os : Option String) (now : Timestamp)
    (h : Failed e) : Agrees Made Failed 1 (Check.failureReport e os now) where
  known := .inr (.inl rfl)
  passed := nofun
  failed := nofun
  broken := fun _ => ⟨e, _, h, rfl, rfl, rfl, rfl, rfl, rfl⟩
  unbroken := fun hcode => absurd rfl hcode

end Agreement

/-- The report that a check leaves agrees with its exit code: it is the one that the check made, or
one on the failure that ended it.  This holds whatever goes wrong on the way, as long as the report
on a failure can be written and none of the other files that the check writes is that of the report.
If the first report cannot be written, then that is the failure. -/
theorem report_agrees (s : Surroundings) (t : FileTree) (words : List String) (line : CommandLine)
    (o : CheckOptions) (hread : read s.environment words = .ok line)
    (hcheck : line.command = .check o)
    (hwritten : ∀ e, (checkBody s line o (line.workspace t)).Fails t e →
      ∃ t', (writeReport o.reportOut (Check.failureReport e (labelOf o.osName) s.clock.stop)).Gives
        (checkBody s line o (line.workspace t) t).tree () t')
    (hother : ∀ other ∈ o.outputs, ¬(runProgram s t words).tree.SamePlace o.reportOut other) :
    ∃ r, (runProgram s t words).tree.readText o.reportOut = .ok r.serialize ∧
      readReport o.reportOut (runProgram s t words).tree = .ok r ∧
      Agrees (Makes s line o t) (fun e => (checkBody s line o (line.workspace t)).Fails t e)
        (runProgram s t words).exitCode r := by
  cases hbody : (checkBody s line o (line.workspace t) t).traced.outcome with
  | ok code =>
    have hgives := gives_of_outcome hbody
    obtain ⟨htree, hcode⟩ :=
      runProgram_of_runCheck hread hcheck (runCheck_gives_iff.2 (.inl hgives))
    rw [htree] at hother
    rw [htree, hcode]
    obtain ⟨document, result, checked, written, hdocument, hrun, hwrite, hkeeps, rfl⟩ :=
      exists_run_of_checkBody hgives
    -- What was written after the report has left its file alone.
    have htext := hkeeps.readText (readText_of_writeFile hwrite) hother
    have hmade : Makes s line o t result.report := ⟨document, result, hdocument, hrun.outcome, rfl⟩
    exact ⟨result.report, htext, readReport_of_readText (Check.portable_of_run hrun.outcome) htext,
      agrees_of_run hrun hmade fun e => hgives.not_fails⟩
  | error e =>
    -- The report on the failure is written last, over one that may have been written before.
    obtain ⟨t', hwrite⟩ := hwritten e hbody
    obtain ⟨htree, hcode⟩ := runProgram_of_fails hread hcheck hbody hwrite
    rw [htree, hcode]
    have htext := readText_of_writeFile hwrite
    exact ⟨_, htext, readReport_of_readText (Check.portable_failureReport _ _ _) htext,
      agrees_failureReport e _ _ hbody⟩

/-- The disk is full when a check publishes its report, which says that all is well.  That report
was written before, and the one on the failure replaces it. -/
theorem report_agrees_full_disk :
    let full : Console := ⟨fun before _ =>
      if before = "" then none else some ⟨0, .other 28 "No space left on device"⟩, fun _ => none⟩
    let s : Surroundings := ⟨[], ⟨default, default⟩, fun _ _ => Action.pure ⟨"", some 0⟩, full⟩
    let tree (report : Octets) : FileTree := ⟨.directory [(Octets.ofText "a", .file [] false),
      (Octets.ofText "r", .file report false), (Octets.ofText "s", .file [] false)], []⟩
    let request : CheckRequest := ⟨"/", none, "", { Overrides.none with
      parser := some "p", files := ["a"] }⟩
    let words := ["--repo-root", "/", "check", "--parser", "p", "--files", "a",
      "--report-out", "/r", "--step-summary", "/s"]
    (∃ result, (Check.run s.responder s.clock request).Gives (tree []) result (tree []) ∧
      result.report.verdict.status = .pass ∧ (writeReport "/r" result.report).Gives (tree []) ()
        (tree (Octets.ofText result.report.serialize))) ∧
    (runProgram s (tree []) words).exitCode = 1 ∧
      ∃ r, readReport "/r" (runProgram s (tree []) words).tree = .ok r ∧
        r.verdict.reasons = [Verdict.toolError] ∧ r.findings.map Finding.message =
          ["publish results: write group end: No space left on device (os error 28)"] := by
  intro full s tree request words
  let o : CheckOptions := ⟨request.overrides, none, none, some "/s", "/r", false,
    "artifacts/parseguard/summary.md"⟩
  let line : CommandLine := ⟨⟨"/", "parseguard.toml", false, false⟩, .check o⟩
  have hread : read s.environment words = .ok line := rfl
  have hworkspace : line.workspace (tree []) = "/" :=
    congrArg (Option.getD · "/") (tree []).canonical_root
  -- The check finds nothing wrong.
  let settings : Settings :=
    ⟨⟨⟨["a"], none, .patterns⟩, ⟨[], none, .patterns⟩⟩, "p", ["parse", "-q", "-t"], .batch, 50⟩
  let evaluation := Evaluation.ofRecords [.clean ⟨"a"⟩] (.ofList [])
  let result : CheckResult :=
    ⟨evaluation.report settings none s.clock, evaluation.tally, settings⟩
  have hrun : (Check.run s.responder s.clock request).Gives (tree []) result (tree []) := by
    have hsettings : Check.settingsOf request = .ok settings := by decide +kernel
    have htargets : (Selection.resolve (tree []) "/" settings.files).outcome =
        .ok (.ofList [⟨"a"⟩]) := Selection.resolve_root_eq_ok (by decide +kernel)
    have hinvalid : (Selection.resolve (tree []) "/" settings.invalidFiles).outcome =
        .ok (.ofList []) := Selection.resolve_eq_ok_ofList (by decide +kernel)
    have hscanned : (Invocation.collect s.responder settings (.ofList [⟨"a"⟩]) "/").Gives (tree [])
        ⟨[.clean ⟨"a"⟩], []⟩ (tree []) := ⟨by decide +kernel, rfl⟩
    exact Check.run_gives_iff.2 ⟨settings, _, _, _, hsettings, htargets, hinvalid, hscanned, rfl⟩
  -- Its report can be written, and so can any other one in its place.
  have hname : FileTree.IsName "/r" (Octets.ofText "r") := by decide +kernel
  have hplace : ∀ old, (tree old).startOf "/r" = [] :=
    fun old => (tree old).startOf_eq_nil _ (by decide +kernel)
  have hnode : ∀ old, (tree old).node? [Octets.ofText "r"] = some (.file old false) := fun _ => rfl
  have hwrite : ∀ old r, (writeReport "/r" r).Gives (tree old) ()
      (tree (Octets.ofText r.serialize)) := by
    intro old r
    exact hname.writeFile_gives rfl (hname.write_eq_replace (hplace old) rfl (hnode old) _) _
  have happart : ∀ old, ¬(tree old).SamePlace "/r" "/s" := by
    intro old
    have hsummary : FileTree.IsName "/s" (Octets.ofText "s") := by decide +kernel
    have hstart := (tree old).startOf_eq_nil "/s" (by decide +kernel)
    exact hname.not_samePlace hsummary (by decide +kernel) (hplace old) rfl (hnode old) rfl hstart
      rfl rfl rfl
  -- Publishing fails behind its first line.
  let e : Failure := ⟨["publish results", "write group end"],
    .file (.other 28 "No space left on device")⟩
  have hpublish : ((Publish.run full ⟨none, some "/s", 50⟩ result.report).within
      "publish results").Fails (tree (Octets.ofText result.report.serialize)) e := by
    show Except.mapError _ _ = Except.error e
    decide +kernel
  have hrefused : ¬full.Takes "" (Publish.linesOf ⟨none, some "/s", 50⟩ result.report) := by
    decide +kernel
  have hleft := (Publish.run_of_not_takes hrefused (tree (Octets.ofText result.report.serialize))).2
  have hbody : (checkBody s line o (line.workspace (tree []))).Fails (tree []) e ∧
      (checkBody s line o (line.workspace (tree [])) (tree [])).tree =
        tree (Octets.ofText result.report.serialize) := by
    have hfound := (tree []).isDirectory_root
    have hdocument : (line.document "/" (tree [])).outcome = .ok "" := by
      have hjoin : RepoPath.joinText "/" line.options.config = "/parseguard.toml" := by
        decide +kernel
      have hconfig : FileTree.IsName "/parseguard.toml" (Octets.ofText "parseguard.toml") := by
        decide +kernel
      have hstart := (tree []).startOf_eq_nil "/parseguard.toml" (by decide +kernel)
      have hmissing := hconfig.nodeOf_eq_notFound hstart rfl (by decide +kernel)
      rw [← hjoin] at hmissing
      exact document_of_missing hmissing
    rw [hworkspace]
    refine fails_of_afterReport hfound hdocument hrun (hwrite [] result.report) ?_
    exact ⟨fails_bind_iff.2 (.inl hpublish), (bind_of_error hpublish _).2.trans hleft⟩
  have hreplaced : ∀ r, (writeReport "/r" r).Gives
      (checkBody s line o (line.workspace (tree [])) (tree [])).tree ()
        (tree (Octets.ofText r.serialize)) := by
    intro r
    rw [hbody.2]
    exact hwrite _ r
  have hwritten : ∀ e', (checkBody s line o (line.workspace (tree []))).Fails (tree []) e' →
      ∃ t', (writeReport "/r" (Check.failureReport e' none s.clock.stop)).Gives
        (checkBody s line o (line.workspace (tree [])) (tree [])).tree () t' :=
    fun e' _ => ⟨_, hreplaced _⟩
  obtain ⟨htree, hcode⟩ := runProgram_of_fails hread rfl hbody.1 (hreplaced _)
  have hother : ∀ other ∈ o.outputs,
      ¬(runProgram s (tree []) words).tree.SamePlace "/r" other := by
    intro other hmem
    rw [htree, List.mem_singleton.1 hmem]
    exact happart _
  obtain ⟨r, -, hr, hagrees⟩ := report_agrees s (tree []) words line o hread rfl hwritten hother
  obtain ⟨e', finding, hfailed, -, hreasons, hfindings, -, hmessage, -⟩ := hagrees.broken hcode
  cases hfailed.symm.trans hbody.1
  have hchain : ": ".intercalate e.chain =
      "publish results: write group end: No space left on device (os error 28)" := by
    decide +kernel
  refine ⟨⟨result, hrun, by decide +kernel, hwrite [] result.report⟩, hcode, r, hr, hreasons, ?_⟩
  rw [hfindings, List.map_singleton, hmessage, hchain]

end CommandLine

end ParseAudit
