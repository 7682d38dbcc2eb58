import ParseAudit.Proofs.Check.Setup
import ParseAudit.Proofs.Scan.Malformed
/-!
# The course of a check

A check that cannot be set up calls no parser.  Otherwise the planned calls are made in their order,
and the first one that fails, or that prints a malformed line, is the last.  Only such a line makes
a scan failure, which a report tells apart from all others.

* `Exchange.IsMalformed`, `isMalformed_of_scanRun`: outputs that cannot be read;
* `Course`: the ways that a check can go, with its outcome and its calls;
* `run_course`: every check goes one of these ways.
-/

namespace ParseAudit

open ParseAudit.Action Chars

namespace Invocation

variable {settings : Settings} {directory : String}

/-- The output of a call has a malformed line that belongs to one of its files. -/
def Exchange.IsMalformed (x : Exchange) (base : String) : Prop :=
  ∃ line ∈ lines x.result.stdout.toList, Scan.Malformed (· ∈ x.run) base line

/-- An output is read unless it has a malformed line. -/
theorem reads_iff {x : Exchange} :
    (∃ out, Reads settings directory x out) ↔ ¬x.IsMalformed directory := by
  have hmalformed : x.IsMalformed directory ↔
      ∃ e, Scan.batch x.result.stdout (.ofList x.run) directory = .error e := by
    rw [Scan.batch_error_iff]
    unfold Exchange.IsMalformed
    simp only [Scan.malformed_congr fun p => FileSet.mem_ofList (l := x.run) (p := p)]
  unfold Reads
  simp only [scanRun_eq_ok_iff, hmalformed]
  cases Scan.batch x.result.stdout (.ofList x.run) directory with
  | ok out => simp
  | error e => simp

/-- What goes wrong when an output is read is a malformed line. -/
theorem isMalformed_of_scanRun {x : Exchange} {e : Failure}
    (h : scanRun settings directory x.run x.result.stdout = .error e) :
    x.IsMalformed directory := by
  by_contra hread
  obtain ⟨out, hout⟩ := reads_iff.2 hread
  have heq := hout.symm.trans h
  cases heq

end Invocation

namespace Check

open Invocation

/-- Whatever the system and the time are, the report on a failure has one finding, with this
code. -/
def ReportedAs (e : Failure) (code : String) : Prop :=
  ∀ os now, (failureReport e os now).findings.map Finding.code = [code]

theorem reportedAs_of_isScan {e : Failure} (h : e.cause.isScan = true) :
    ReportedAs e "unrecognized_output" := by
  intro os now
  simp [failureReport, h, Finding.unrecognizedOutputCode]

theorem reportedAs_of_not_isScan {e : Failure} (h : e.cause.isScan = false) :
    ReportedAs e "runtime_error" := by
  intro os now
  simp [failureReport, h, Finding.runtimeErrorCode]

/-- The ways that a check can go that is started from a tree, each with its outcome and the calls
that are made. -/
inductive Course (respond : Responder) (request : CheckRequest) (tree : FileTree) :
    Except Failure CheckResult → List Invocation → Prop where
  /-- Settings or files cannot be resolved, and no call is made. -/
  | unresolved {e : Failure} (setup : Unresolved request tree e)
      (cause : e.cause.isScan = false) (reported : ReportedAs e "runtime_error") :
      Course respond request tree (.error e) []
  /-- All calls are made, and their outputs have no malformed line. -/
  | completed {settings : Settings} {targets : FileSet} {exchanges : List Exchange}
      {last : FileTree} {result : CheckResult} (plan : Planned request tree settings targets)
      (runs : exchanges.map Exchange.run = runsFor settings targets)
      (exchanged : Exchanged respond settings request.workspace 0 tree exchanges last)
      (read : ∀ x ∈ exchanges, ¬x.IsMalformed request.workspace) :
      Course respond request tree (.ok result)
        (callsFor settings request.workspace (runsFor settings targets))
  /-- A call fails.  All calls before it came back without a malformed line, and it is the last. -/
  | broken {settings : Settings} {targets : FileSet} {exchanges : List Exchange}
      {run : List RepoPath} {mid : FileTree} {e : Failure}
      (plan : Planned request tree settings targets)
      (runs : ∃ after, runsFor settings targets = exchanges.map Exchange.run ++ run :: after)
      (exchanged : Exchanged respond settings request.workspace 0 tree exchanges mid)
      (read : ∀ x ∈ exchanges, ¬x.IsMalformed request.workspace)
      (fails : (respond exchanges.length (forRun settings request.workspace run)).Fails mid e)
      (cause : e.cause.isScan = false) (reported : ReportedAs e "runtime_error") :
      Course respond request tree (.error e)
        (callsFor settings request.workspace (exchanges.map Exchange.run ++ [run]))
  /-- A call prints a malformed line.  All calls before it came back without one, and it is the
  last. -/
  | malformed {settings : Settings} {targets : FileSet} {exchanges : List Exchange}
      {run : List RepoPath} {mid mid' : FileTree} {result : CallResult} {e : Failure}
      (plan : Planned request tree settings targets)
      (runs : ∃ after, runsFor settings targets = exchanges.map Exchange.run ++ run :: after)
      (exchanged : Exchanged respond settings request.workspace 0 tree exchanges mid)
      (read : ∀ x ∈ exchanges, ¬x.IsMalformed request.workspace)
      (answers : (respond exchanges.length (forRun settings request.workspace run)).Gives mid
        result mid')
      (unread : Exchange.IsMalformed ⟨run, result⟩ request.workspace)
      (cause : e.cause.isScan = true) (reported : ReportedAs e "unrecognized_output") :
      Course respond request tree (.error e)
        (callsFor settings request.workspace (exchanges.map Exchange.run ++ [run]))

variable {respond : Responder} {clock : Clock} {request : CheckRequest} {tree : FileTree}

/-- A check that is set up makes the calls that are collected. -/
theorem calls_of_planned {settings : Settings} {targets : FileSet}
    (h : Planned request tree settings targets) :
    (run respond clock request tree).traced.calls =
      (callRuns respond settings request.workspace 0 (runsFor settings targets)
        tree).traced.calls := by
  obtain ⟨invalid, hinvalid⟩ := h.invalid_eq
  rw [calls_run h.settings_eq h.targets_eq hinvalid, calls_collect]

/-- A check that is set up and succeeds has made all calls. -/
theorem course_of_gives (hmute : ∀ made invocation, (respond made invocation).Mute)
    {result : CheckResult} (h : (run respond clock request tree).traced.outcome = .ok result) :
    Course respond request tree (.ok result) (run respond clock request tree).traced.calls := by
  obtain ⟨settings, targets, invalid, scanned, hsettings, htargets, hinvalid, hscanned, -⟩ :=
    run_gives_iff.1 (gives_of_outcome h)
  have hplan : Planned request tree settings targets := ⟨hsettings, htargets, invalid, hinvalid⟩
  have hcalls := collect_gives_iff.1 hscanned
  obtain ⟨exchanges, outs, hruns, hexchanged, hreads, -⟩ := callRuns_gives_iff.1 hcalls
  rw [calls_of_planned hplan, calls_callRuns_of_gives hmute hcalls]
  have hread : ∀ x ∈ exchanges, ∃ out, Reads settings request.workspace x out :=
    ((List.forall₂_and_left _ _).1 (hreads.imp fun x out hx => ⟨⟨out, hx⟩, hx⟩)).1
  exact .completed hplan hruns hexchanged fun x hx => reads_iff.1 (hread x hx)

/-- A check that is set up and fails has stopped at the call that is to blame. -/
theorem course_of_fails (hmute : ∀ made invocation, (respond made invocation).Mute)
    (hrunner : ∀ made invocation t e, (respond made invocation).Fails t e → e.cause.isScan = false)
    {settings : Settings} {targets : FileSet} (hplan : Planned request tree settings targets)
    {e : Failure} (h : (run respond clock request).Fails tree e) :
    Course respond request tree (.error e) (run respond clock request tree).traced.calls := by
  have hcalls := collect_fails_iff.1 ((planned_fails_iff hplan).1 h)
  obtain ⟨exchanges, run, mid, hstops, hfails, hmade⟩ := exists_stopsAt hmute hcalls
  rw [calls_of_planned hplan, hmade]
  rw [Nat.zero_add] at hfails
  have hread : ∀ x ∈ exchanges, ¬x.IsMalformed request.workspace :=
    fun x hx => reads_iff.1 (hstops.read x hx)
  rcases callRun_fails_iff.1 hfails with hcall | ⟨result, mid', hcall, hscan⟩
  · have hcause := hrunner _ _ _ _ hcall
    exact .broken hplan hstops.runs_eq hstops.exchanged hread hcall hcause
      (reportedAs_of_not_isScan hcause)
  · have hcause := isScan_of_scanRun hscan
    exact .malformed hplan hstops.runs_eq hstops.exchanged hread hcall
      (isMalformed_of_scanRun (x := ⟨run, result⟩) hscan) hcause (reportedAs_of_isScan hcause)

/-- The course of a check.  If settings or files cannot be resolved, the parser is not called.
Otherwise the planned calls are made in their order up to the first one that fails or prints a
malformed line, or all of them if there is none; and a failure is a scan failure, and reported as
one, only if it is for such a line.  Failures of the parser itself are no scan failures, and it
calls no parser of its own. -/
theorem run_course (respond : Responder)
    (hmute : ∀ made invocation, (respond made invocation).Mute)
    (hrunner : ∀ made invocation t e, (respond made invocation).Fails t e → e.cause.isScan = false)
    (clock : Clock) (request : CheckRequest) (tree : FileTree) :
    Course respond request tree (run respond clock request tree).traced.outcome
      (run respond clock request tree).traced.calls := by
  rcases unresolved_or_planned request tree with ⟨e, hsetup⟩ | ⟨settings, targets, hplan⟩
  · obtain ⟨houtcome, hcalls⟩ : (run respond clock request tree).traced.outcome = .error e ∧
        (run respond clock request tree).traced.calls = [] := unresolved_fails hsetup
    rw [houtcome, hcalls]
    exact .unresolved hsetup hsetup.isScan (reportedAs_of_not_isScan hsetup.isScan)
  · cases houtcome : (run respond clock request tree).traced.outcome with
    | ok result => exact course_of_gives hmute houtcome
    | error e => exact course_of_fails hmute hrunner hplan houtcome

/-- Three files, each with a call of its own.  The output of the second call has a line that ends
like an error node and is none, so there is no third call. -/
theorem run_course_stopped :
    let respond : Responder := fun made _ => Action.pure
      ⟨if made = 1 then "b.py (ERROR [0, 0])\n" else "", some 0⟩
    let request : CheckRequest := ⟨"/", none, "", { Overrides.none with
      parser := some "p", parserArgs := some ["-q"], mode := some "per-file",
      files := ["*.py"] }⟩
    let tree : FileTree := ⟨.directory (["a.py", "b.py", "c.py"].map fun name =>
      (Octets.ofText name, .file [] false)), []⟩
    let clock : Clock := ⟨default, default⟩
    (∀ made invocation, (respond made invocation).Mute) ∧
      (∀ made invocation t e, (respond made invocation).Fails t e → e.cause.isScan = false) ∧
      (run respond clock request tree).traced.calls =
        [⟨"p", ["-q", "a.py"], "/"⟩, ⟨"p", ["-q", "b.py"], "/"⟩] ∧
      ∃ e, (run respond clock request tree).traced.outcome = .error e ∧
        ReportedAs e "unrecognized_output" ∧
        Course respond request tree (.error e)
          [⟨"p", ["-q", "a.py"], "/"⟩, ⟨"p", ["-q", "b.py"], "/"⟩] := by
  intro respond request tree clock
  have hmute : ∀ made invocation, (respond made invocation).Mute := fun _ _ => mute_pure _
  have hrunner : ∀ made invocation t e,
      (respond made invocation).Fails t e → e.cause.isScan = false :=
    fun _ _ _ _ h => absurd h not_fails_pure
  let settings : Settings :=
    ⟨⟨⟨["*.py"], none, .patterns⟩, ⟨[], none, .patterns⟩⟩, "p", ["-q"], .perFile, 50⟩
  let targets : FileSet := .ofList [⟨"a.py"⟩, ⟨"b.py"⟩, ⟨"c.py"⟩]
  have hsettings : settingsOf request = .ok settings := by decide +kernel
  have htargets : (Selection.resolve tree "/" settings.files).outcome = .ok targets :=
    Selection.resolve_root_eq_ok (by decide +kernel)
  have hinvalid :
      (Selection.resolve tree "/" settings.invalidFiles).outcome = .ok (.ofList []) :=
    Selection.resolve_eq_ok_ofList (by decide +kernel)
  have hplan : Planned request tree settings targets := ⟨hsettings, htargets, _, hinvalid⟩
  have hcalls : (run respond clock request tree).traced.calls =
      [⟨"p", ["-q", "a.py"], "/"⟩, ⟨"p", ["-q", "b.py"], "/"⟩] := by
    rw [calls_of_planned hplan]
    decide +kernel
  let e : Failure := ⟨["scan parser output for b.py"],
    .scan ⟨1, "b.py (ERROR [0, 0])", .missingRangeSeparator⟩⟩
  have hcollect : (collect respond settings targets "/" tree).traced.outcome = .error e := by
    decide +kernel
  have houtcome : (run respond clock request tree).traced.outcome = .error e :=
    (planned_fails_iff hplan).2 hcollect
  have hcourse := run_course respond hmute hrunner clock request tree
  rw [houtcome, hcalls] at hcourse
  exact ⟨hmute, hrunner, hcalls, e, houtcome, reportedAs_of_isScan rfl, hcourse⟩

end Check

end ParseAudit
