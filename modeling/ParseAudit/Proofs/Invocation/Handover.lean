import ParseAudit.Proofs.Calls
import ParseAudit.Proofs.Invocation.Budget
import ParseAudit.Proofs.Invocation.Exchange
/-!
# Handing files over

The calls that are made for a set of files hand over every file once, in order; they end early only
with a call that fails.

* `HandsOver`: runs in which a set of files may be handed over;
* `handsOver_runsFor`: the planned runs are such runs;
* `callsFor`: the calls for some runs;
* `calls_callRuns_of_gives`, `calls_callRuns_of_fails`, `calls_collect`: the calls that are made;
* `exists_stopsAt`: where calls fail, and what happened before.
-/

namespace ParseAudit.Invocation

open ParseAudit.Action

variable {respond : Responder} {settings : Settings} {directory : String}

/-! ## Runs -/

/-- Runs in which a set of files is handed over: together they are the files in increasing order,
each has a file, and in batch mode they are filled up to 30000 octets. -/
structure HandsOver (settings : Settings) (files : FileSet) (runs : List (List RepoPath)) :
    Prop where
  flatten : runs.flatten = files.toList
  increasing : runs.flatten.Pairwise fun file next => file.text < next.text
  ne_nil : ∀ run ∈ runs, run ≠ []
  eq_nil : files.isEmpty = true → runs = []
  single : settings.mode = .perFile → ∀ run ∈ runs, run.length = 1
  filled : settings.mode = .batch →
    Filled (runCost settings.parser settings.parserArgs) 30000 runs

theorem handsOver_runsFor (settings : Settings) (files : FileSet) :
    HandsOver settings files (runsFor settings files) := by
  constructor
  · exact flatten_runsFor settings files
  · rw [flatten_runsFor]
    exact files.sorted
  · exact fun run => ne_nil_of_mem_runsFor
  · exact runsFor_eq_nil
  · exact fun hmode run => length_of_perFile hmode
  · intro hmode
    unfold runsFor
    rw [hmode]
    exact filled_runs settings.parser settings.parserArgs files

/-! ## Calls -/

/-- The calls for some runs: one for each, with the files after the arguments of the parser. -/
def callsFor (settings : Settings) (directory : String) (runs : List (List RepoPath)) :
    List Invocation :=
  runs.map fun run => ⟨settings.parser, settings.parserArgs ++ run.map RepoPath.text, directory⟩

/-- The call for a run fails: the parser cannot be run, or what it prints cannot be read. -/
def CallFails (respond : Responder) (settings : Settings) (directory : String) (made : Nat)
    (run : List RepoPath) (e : Failure) : Prop :=
  ∃ tree, (respond made (forRun settings directory run)).Fails tree e ∨
    ∃ result mid, (respond made (forRun settings directory run)).Gives tree result mid ∧
      scanRun settings directory run result.stdout = .error e

theorem mute_noteAllUnmatched (lines : List String) : (noteAllUnmatched lines).Mute := by
  induction lines with
  | nil => exact mute_pure ()
  | cons line lines ih =>
    have hline : (noteUnmatched line).Mute := by
      unfold noteUnmatched
      exact (mute_log _ _ _).ite (mute_log _ _ _)
    exact hline.bind fun _ => ih

/-- The parser is called once for a run, whatever comes of it. -/
theorem calls_callRun (hmute : ∀ made invocation, (respond made invocation).Mute) (made : Nat)
    (run : List RepoPath) (tree : FileTree) :
    (callRun respond settings directory made run tree).traced.calls =
      [forRun settings directory run] := by
  unfold callRun
  refine (calls_bind_of_mute (fun _ => ?_) _ tree).trans rfl
  refine (hmute _ _).bind fun result => ?_
  refine Mute.bind (mute_log _ _ _) fun _ => ?_
  exact (mute_ofExcept _).bind fun scanned => (mute_noteAllUnmatched _).bind fun _ => mute_pure _

/-- If all calls succeed, there is one for each run. -/
theorem calls_callRuns_of_gives (hmute : ∀ made invocation, (respond made invocation).Mute)
    {made : Nat} {runs : List (List RepoPath)} {out : ScanOutput} {tree tree' : FileTree}
    (h : (callRuns respond settings directory made runs).Gives tree out tree') :
    (callRuns respond settings directory made runs tree).traced.calls =
      callsFor settings directory runs := by
  induction runs generalizing made out tree tree' with
  | nil => rfl
  | cons run runs ih =>
    unfold callRuns at h ⊢
    obtain ⟨first, mid, hfirst, h⟩ := gives_bind_iff.1 h
    obtain ⟨others, last, hothers, -⟩ := gives_bind_iff.1 h
    rw [calls_bind_of_gives hfirst, calls_callRun hmute, calls_bind_of_mute fun _ => mute_pure _,
      ih hothers]
    rfl

/-- Calls fail at the run whose call fails: those before it came back, and none is made after it. -/
theorem exists_stopsAt (hmute : ∀ made invocation, (respond made invocation).Mute) {made : Nat}
    {runs : List (List RepoPath)} {e : Failure} {tree : FileTree}
    (h : (callRuns respond settings directory made runs).Fails tree e) :
    ∃ exchanges run mid, StopsAt respond settings directory made tree runs exchanges run mid ∧
      (callRun respond settings directory (made + exchanges.length) run).Fails mid e ∧
      (callRuns respond settings directory made runs tree).traced.calls =
        callsFor settings directory (exchanges.map Exchange.run ++ [run]) := by
  induction runs generalizing made tree with
  | nil => exact absurd h not_fails_pure
  | cons run runs ih =>
    unfold callRuns at h ⊢
    rcases fails_bind_iff.1 h with hfirst | ⟨first, mid, hfirst, h⟩
    · refine ⟨[], run, tree, .here made tree run runs, hfirst, ?_⟩
      rw [calls_bind_of_fails hfirst, calls_callRun hmute]
      rfl
    · rcases fails_bind_iff.1 h with hothers | ⟨_, _, _, hpure⟩
      · obtain ⟨result, hcall, hread⟩ := callRun_gives_iff.1 hfirst
        obtain ⟨exchanges, last, mid', hstops, hfails, hcalls⟩ := ih hothers
        refine ⟨⟨run, result⟩ :: exchanges, last, mid', hstops.cons hcall hread, ?_, ?_⟩
        · rwa [List.length_cons, Nat.add_comm exchanges.length, ← Nat.add_assoc]
        · rw [calls_bind_of_gives hfirst, calls_callRun hmute,
            calls_bind_of_mute fun _ => mute_pure _, hcalls]
          rfl
      · exact absurd hpure not_fails_pure

/-- If a call fails, there is one for each run up to that call. -/
theorem calls_callRuns_of_fails (hmute : ∀ made invocation, (respond made invocation).Mute)
    {made : Nat} {runs : List (List RepoPath)} {e : Failure} {tree : FileTree}
    (h : (callRuns respond settings directory made runs).Fails tree e) :
    ∃ before run after, runs = before ++ run :: after ∧
      (callRuns respond settings directory made runs tree).traced.calls =
        callsFor settings directory (before ++ [run]) ∧
      CallFails respond settings directory (made + before.length) run e := by
  obtain ⟨exchanges, run, mid, hstops, hfails, hcalls⟩ := exists_stopsAt hmute h
  obtain ⟨after, hruns⟩ := hstops.runs_eq
  refine ⟨exchanges.map Exchange.run, run, after, hruns, hcalls, mid, ?_⟩
  rw [List.length_map]
  exact callRun_fails_iff.1 hfails

/-- What is noted in front of the calls is no call. -/
theorem calls_collect (respond : Responder) (settings : Settings) (files : FileSet)
    (directory : String) (tree : FileTree) :
    (collect respond settings files directory tree).traced.calls =
      (callRuns respond settings directory 0 (runsFor settings files) tree).traced.calls := by
  unfold collect
  split
  · next hempty =>
    rw [runsFor_eq_nil hempty]
    rfl
  · exact calls_ite_log_bind _ _ _ _ tree

end ParseAudit.Invocation
