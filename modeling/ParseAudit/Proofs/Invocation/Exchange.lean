import ParseAudit.Invocation.Collect
import ParseAudit.Proofs.Action
import ParseAudit.Proofs.Invocation.Runs
import ParseAudit.Proofs.Scan.Reading
import Mathlib.Data.List.Forall2
/-!
# Exchanges with the parser

A check talks to the parser call by call: it hands over a run of files and gets an output back.
Whatever is collected is read from the outputs of such exchanges.

* `scanRun_eq_ok_iff`: an output is read in the same way in both modes;
* `Exchanged`: a sequence of calls with what came back, from one tree to another;
* `callRuns_gives_iff`, `collect_gives_iff`: records are collected exactly when every call comes
  back with an output that can be read, and they are put together from these outputs;
* `StopsAt`: how far the calls get that come to an end at one of the runs;
* `callRuns_gives_of_read`, `callRuns_fails_of_unread`: what is collected from a parser whose
  outputs are known in advance.
-/

namespace ParseAudit.Invocation

open ParseAudit.Action

variable {respond : Responder} {settings : Settings} {directory : String}

/-- One call of the parser: the files handed over, and what came back. -/
structure Exchange where
  run : List RepoPath
  result : CallResult

/-- The calls made one after another, the first of them after `made` calls.  Between two calls
nothing but the parser changes the tree. -/
inductive Exchanged (respond : Responder) (settings : Settings) (directory : String) :
    Nat → FileTree → List Exchange → FileTree → Prop where
  | nil {made : Nat} {tree : FileTree} : Exchanged respond settings directory made tree [] tree
  | cons {made : Nat} {run : List RepoPath} {result : CallResult} {exchanges : List Exchange}
      {tree mid tree' : FileTree}
      (call : (respond made (forRun settings directory run)).Gives tree result mid)
      (rest : Exchanged respond settings directory (made + 1) mid exchanges tree') :
      Exchanged respond settings directory made tree (⟨run, result⟩ :: exchanges) tree'

/-- The output of an exchange is read as something. -/
def Reads (settings : Settings) (directory : String) (x : Exchange) (out : ScanOutput) : Prop :=
  scanRun settings directory x.run x.result.stdout = .ok out

/-! ## One output -/

theorem within_eq_ok_iff {context : String} {x : Except ScanError ScanOutput} {out : ScanOutput} :
    Except.within context .scan x = .ok out ↔ x = .ok out := by
  constructor
  · intro h
    cases x with
    | ok out' =>
      cases h
      rfl
    | error e => cases h
  · rintro rfl
    rfl

/-- In both modes an output is read as that of a run over several files. -/
theorem scanRun_eq_ok_iff {run : List RepoPath} {stdout : String} {out : ScanOutput} :
    scanRun settings directory run stdout = .ok out ↔
      Scan.batch stdout (.ofList run) directory = .ok out := by
  unfold scanRun
  split
  · rw [Scan.single_eq_batch]
    exact within_eq_ok_iff
  · exact within_eq_ok_iff

/-- An output that cannot be read makes a scan failure. -/
theorem isScan_of_scanRun {run : List RepoPath} {stdout : String} {e : Failure}
    (h : scanRun settings directory run stdout = .error e) : e.cause.isScan = true := by
  have hwithin : ∀ {context : String} {x : Except ScanError ScanOutput},
      Except.within context .scan x = .error e → e.cause.isScan = true := by
    intro context x hx
    cases x with
    | ok out => cases hx
    | error cause =>
      cases hx
      rfl
  unfold scanRun at h
  split at h
  · exact hwithin h
  · exact hwithin h

/-! ## One call -/

theorem quiet_noteUnmatched (line : String) : (noteUnmatched line).Quiet := by
  unfold noteUnmatched
  split
  · exact quiet_log _ _ _
  · exact quiet_log _ _ _

theorem quiet_noteAllUnmatched (lines : List String) : (noteAllUnmatched lines).Quiet := by
  induction lines with
  | nil => exact quiet_pure
  | cons line lines ih => exact (quiet_noteUnmatched line).bind ih

theorem quiet_noteStatus (settings : Settings) (run : List RepoPath) (status : Option Int) :
    (noteStatus settings run status).Quiet :=
  quiet_log _ _ _

/-- A call succeeds exactly when the parser comes back with an output that can be read. -/
theorem callRun_gives_iff {made : Nat} {run : List RepoPath} {out : ScanOutput}
    {tree tree' : FileTree} :
    (callRun respond settings directory made run).Gives tree out tree' ↔
      ∃ result, (respond made (forRun settings directory run)).Gives tree result tree' ∧
        Reads settings directory ⟨run, result⟩ out := by
  unfold callRun
  dsimp only
  rw [(quiet_noteCall _).gives_bind_iff, gives_bind_iff]
  constructor
  · rintro ⟨result, mid, hcall, h⟩
    rw [(quiet_noteStatus _ _ _).gives_bind_iff, gives_bind_iff] at h
    obtain ⟨scanned, mid', hscan, h⟩ := h
    obtain ⟨hread, rfl⟩ := gives_ofExcept_iff.1 hscan
    rw [(quiet_noteAllUnmatched _).gives_bind_iff, gives_pure_iff] at h
    obtain ⟨rfl, rfl⟩ := h
    exact ⟨result, hcall, hread⟩
  · rintro ⟨result, hcall, hread⟩
    refine ⟨result, tree', hcall, ?_⟩
    rw [(quiet_noteStatus _ _ _).gives_bind_iff, gives_bind_iff]
    refine ⟨out, tree', gives_ofExcept_iff.2 ⟨hread, rfl⟩, ?_⟩
    rw [(quiet_noteAllUnmatched _).gives_bind_iff, gives_pure_iff]
    exact ⟨rfl, rfl⟩

/-- A call fails with the parser, or because its output cannot be read. -/
theorem callRun_fails_iff {made : Nat} {run : List RepoPath} {e : Failure} {tree : FileTree} :
    (callRun respond settings directory made run).Fails tree e ↔
      (respond made (forRun settings directory run)).Fails tree e ∨
        ∃ result mid, (respond made (forRun settings directory run)).Gives tree result mid ∧
          scanRun settings directory run result.stdout = .error e := by
  unfold callRun
  dsimp only
  rw [(quiet_noteCall _).fails_bind_iff, fails_bind_iff]
  apply or_congr_right
  apply exists_congr
  intro result
  apply exists_congr
  intro mid
  apply and_congr_right
  intro hcall
  rw [(quiet_noteStatus _ _ _).fails_bind_iff, fails_bind_iff, fails_ofExcept_iff]
  constructor
  · rintro (hscan | ⟨scanned, mid', -, h⟩)
    · exact hscan
    · rw [(quiet_noteAllUnmatched _).fails_bind_iff] at h
      exact absurd h not_fails_pure
  · exact .inl

/-! ## All calls -/

/-- The calls for some runs succeed exactly when each of them does, and what they give is put
together from their outputs. -/
theorem callRuns_gives_iff {made : Nat} {runs : List (List RepoPath)} {out : ScanOutput}
    {tree tree' : FileTree} :
    (callRuns respond settings directory made runs).Gives tree out tree' ↔
      ∃ exchanges outs, exchanges.map Exchange.run = runs ∧
        Exchanged respond settings directory made tree exchanges tree' ∧
        List.Forall₂ (Reads settings directory) exchanges outs ∧ out = .concat outs := by
  induction runs generalizing made out tree with
  | nil =>
    unfold callRuns
    rw [gives_pure_iff]
    constructor
    · rintro ⟨rfl, rfl⟩
      exact ⟨[], [], rfl, .nil, .nil, rfl⟩
    · rintro ⟨exchanges, outs, hruns, hexchanged, houts, rfl⟩
      rw [List.map_eq_nil_iff] at hruns
      subst hruns
      cases hexchanged
      cases houts
      exact ⟨rfl, rfl⟩
  | cons run runs ih =>
    unfold callRuns
    rw [gives_bind_iff]
    constructor
    · rintro ⟨first, mid, hfirst, h⟩
      obtain ⟨result, hcall, hread⟩ := callRun_gives_iff.1 hfirst
      obtain ⟨others, mid', hothers, hpure⟩ := gives_bind_iff.1 h
      obtain ⟨rfl, rfl⟩ := gives_pure_iff.1 hpure
      obtain ⟨exchanges, outs, rfl, hexchanged, houts, rfl⟩ := ih.1 hothers
      exact ⟨⟨run, result⟩ :: exchanges, first :: outs, rfl, .cons hcall hexchanged,
        .cons hread houts, (ScanOutput.concat_cons first outs).symm⟩
    · rintro ⟨exchanges, outs, hruns, hexchanged, houts, rfl⟩
      cases hexchanged with
      | nil => cases hruns
      | @cons _ run' result exchanges _ mid _ hcall hrest =>
        simp only [List.map_cons, List.cons.injEq] at hruns
        obtain ⟨rfl, hruns⟩ := hruns
        cases houts with
        | @cons _ first _ outs hread houts =>
          refine ⟨first, mid, callRun_gives_iff.2 ⟨result, hcall, hread⟩, ?_⟩
          rw [gives_bind_iff]
          exact ⟨.concat outs, tree', ih.2 ⟨exchanges, outs, hruns, hrest, houts, rfl⟩,
            gives_pure_iff.2 ⟨ScanOutput.concat_cons first outs, rfl⟩⟩

/-- How far the calls for some runs get that stop at one of the runs: the calls before it come back
with outputs that can be read, and leave the tree `mid`. -/
structure StopsAt (respond : Responder) (settings : Settings) (directory : String) (made : Nat)
    (tree : FileTree) (runs : List (List RepoPath)) (exchanges : List Exchange)
    (run : List RepoPath) (mid : FileTree) : Prop where
  runs_eq : ∃ after, runs = exchanges.map Exchange.run ++ run :: after
  exchanged : Exchanged respond settings directory made tree exchanges mid
  read : ∀ x ∈ exchanges, ∃ out, Reads settings directory x out

/-- Calls that stop before the first run have not been made. -/
theorem StopsAt.here (made : Nat) (tree : FileTree) (run : List RepoPath)
    (after : List (List RepoPath)) :
    StopsAt respond settings directory made tree (run :: after) [] run tree :=
  ⟨⟨after, rfl⟩, .nil, nofun⟩

/-- One call in front that comes back. -/
theorem StopsAt.cons {made : Nat} {first run : List RepoPath} {result : CallResult}
    {out : ScanOutput} {runs : List (List RepoPath)} {exchanges : List Exchange}
    {tree mid mid' : FileTree}
    (hcall : (respond made (forRun settings directory first)).Gives tree result mid)
    (hread : Reads settings directory ⟨first, result⟩ out)
    (h : StopsAt respond settings directory (made + 1) mid runs exchanges run mid') :
    StopsAt respond settings directory made tree (first :: runs) (⟨first, result⟩ :: exchanges)
      run mid' := by
  obtain ⟨after, hruns⟩ := h.runs_eq
  refine ⟨⟨after, congrArg (first :: ·) hruns⟩, .cons hcall h.exchanged, ?_⟩
  intro x hx
  rcases List.mem_cons.1 hx with rfl | hx
  · exact ⟨out, hread⟩
  · exact h.read x hx

/-- Without files there is no run. -/
theorem runsFor_eq_nil {files : FileSet} (h : files.isEmpty = true) :
    runsFor settings files = [] := by
  rw [List.eq_nil_iff_forall_not_mem]
  intro run hrun
  obtain ⟨file, hfile⟩ := List.exists_mem_of_ne_nil run (ne_nil_of_mem_runsFor hrun)
  have hmem := mem_of_mem_run hrun hfile
  rw [FileSet.mem_def, List.isEmpty_iff.1 h] at hmem
  cases hmem

/-- What is collected for a set of files is what the calls for its runs give. -/
theorem collect_gives_iff {files : FileSet} {out : ScanOutput} {tree tree' : FileTree} :
    (collect respond settings files directory).Gives tree out tree' ↔
      (callRuns respond settings directory 0 (runsFor settings files)).Gives tree out tree' := by
  unfold collect
  split
  · next hempty =>
    rw [runsFor_eq_nil hempty, (quiet_log _ _ _).gives_bind_iff]
    rfl
  · exact (quiet_log _ _ _).gives_ite_iff

theorem collect_fails_iff {files : FileSet} {e : Failure} {tree : FileTree} :
    (collect respond settings files directory).Fails tree e ↔
      (callRuns respond settings directory 0 (runsFor settings files)).Fails tree e := by
  unfold collect
  split
  · next hempty =>
    rw [runsFor_eq_nil hempty, (quiet_log _ _ _).fails_bind_iff]
    rfl
  · exact (quiet_log _ _ _).fails_ite_iff

/-! ## Parsers whose outputs are known -/

/-- The parser answers the call for a run with a known output, whenever it is called. -/
def Prints (respond : Responder) (settings : Settings) (directory : String)
    (printed : List RepoPath → String) (run : List RepoPath) : Prop :=
  ∀ made tree, ∃ status mid,
    (respond made (forRun settings directory run)).Gives tree ⟨printed run, status⟩ mid

/-- If all outputs can be read, they are collected one after another. -/
theorem callRuns_gives_of_read {printed : List RepoPath → String}
    {read : List RepoPath → ScanOutput} {runs : List (List RepoPath)}
    (hprints : ∀ run ∈ runs, Prints respond settings directory printed run)
    (hread : ∀ run ∈ runs, scanRun settings directory run (printed run) = .ok (read run))
    (made : Nat) (tree : FileTree) :
    ∃ tree', (callRuns respond settings directory made runs).Gives tree
      (.concat (runs.map read)) tree' := by
  induction runs generalizing made tree with
  | nil => exact ⟨tree, gives_pure_iff.2 ⟨rfl, rfl⟩⟩
  | cons run runs ih =>
    obtain ⟨status, mid, hcall⟩ := hprints run List.mem_cons_self made tree
    have hfirst := callRun_gives_iff.2 ⟨_, hcall, hread run List.mem_cons_self⟩
    obtain ⟨tree', hrest⟩ := ih (fun r hr => hprints r (List.mem_cons_of_mem run hr))
      (fun r hr => hread r (List.mem_cons_of_mem run hr)) (made + 1) mid
    refine ⟨tree', ?_⟩
    unfold callRuns
    rw [gives_bind_iff]
    refine ⟨read run, mid, hfirst, ?_⟩
    rw [gives_bind_iff]
    exact ⟨_, tree', hrest, gives_pure_iff.2 ⟨rfl, rfl⟩⟩

/-- If one of the outputs cannot be read, nothing is collected. -/
theorem callRuns_fails_of_unread {printed : List RepoPath → String} {runs : List (List RepoPath)}
    (hprints : ∀ run ∈ runs, Prints respond settings directory printed run)
    {run : List RepoPath} (hrun : run ∈ runs) {e : Failure}
    (hread : scanRun settings directory run (printed run) = .error e)
    (made : Nat) (tree : FileTree) :
    ∃ e, (callRuns respond settings directory made runs).Fails tree e ∧ e.cause.isScan = true := by
  induction runs generalizing made tree with
  | nil => cases hrun
  | cons first runs ih =>
    obtain ⟨status, mid, hcall⟩ := hprints first List.mem_cons_self made tree
    unfold callRuns
    cases hfirst : scanRun settings directory first (printed first) with
    | error e' =>
      refine ⟨e', fails_bind_iff.2 (.inl ?_), isScan_of_scanRun hfirst⟩
      exact callRun_fails_iff.2 (.inr ⟨_, mid, hcall, hfirst⟩)
    | ok out =>
      have hrest : run ∈ runs := by
        rcases List.mem_cons.1 hrun with rfl | hrest
        · rw [hfirst] at hread
          cases hread
        · exact hrest
      obtain ⟨e', hfails, hscan⟩ := ih (fun r hr => hprints r (List.mem_cons_of_mem first hr))
        hrest (made + 1) mid
      refine ⟨e', fails_bind_iff.2 (.inr ?_), hscan⟩
      exact ⟨out, mid, callRun_gives_iff.2 ⟨_, hcall, hfirst⟩, fails_bind_iff.2 (.inl hfails)⟩

end ParseAudit.Invocation
