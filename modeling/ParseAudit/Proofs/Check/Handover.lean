import ParseAudit.Proofs.Check.Soundness
import ParseAudit.Proofs.Invocation.Handover
import ParseAudit.Resolve
import ParseAudit.Script.Respond
import Mathlib.Data.String.Basic
/-!
# What a check hands over

A check hands over the files that are listed when its files are resolved by themselves.

* `mute_resolve`: the parser is not called for resolving a set of files;
* `files_of_filesOnly`, `filesOnly_of_files`: the files to check, asked for by themselves;
* `calls_run`: the calls of a check are those for its files to check;
* `handed_over_once`: every file is handed over exactly once.
-/

namespace ParseAudit

open ParseAudit.Action Invocation

/-! ## Selecting files -/

namespace Selection

theorem mute_read (t : FileTree) (path : String) : (ListFile.read t path).Mute := by
  unfold ListFile.read
  split
  · exact (Traced.mute_ofExcept _).bind fun _ => rfl
  · rfl

theorem mute_listEntries (t : FileTree) (base : String) (source : FileSource) :
    (listEntries t base source).Mute := by
  unfold listEntries
  split
  · rfl
  · exact (mute_read _ _).bind fun _ => rfl

theorem mute_visits (t : FileTree) (base : String) : (visits t base).Mute := by
  unfold visits
  dsimp only
  split <;> rfl

theorem mute_pathsOf (base : String) (found : List Visit) : (pathsOf base found).Mute := by
  induction found with
  | nil => rfl
  | cons visit found ih =>
    have hpath : (pathOf visit base).Mute := by
      unfold pathOf
      split <;> rfl
    exact hpath.bind fun _ => ih.bind fun _ => rfl

theorem mute_expand (t : FileTree) (base : String) (patterns : PatternSet) :
    (expand t base patterns).Mute :=
  (mute_visits t base).bind fun _ => (mute_pathsOf base _).bind fun _ => rfl

/-- The parser is not called for resolving a set of files. -/
theorem mute_resolve (t : FileTree) (base : String) (source : FileSource) :
    (resolve t base source).Mute := by
  unfold resolve
  refine (mute_listEntries t base source).bind fun entries => ?_
  refine (Traced.mute_ofExcept _).bind fun set => ?_
  dsimp only
  split
  · exact (mute_expand t base set).bind fun _ => rfl
  · rfl

end Selection

/-! ## Running programs -/

/-- Programs that are run for a check call no parser of their own. -/
theorem Script.mute_respond (environment : Environment) (made : Nat) (invocation : Invocation) :
    (respond environment made invocation).Mute := by
  unfold respond
  refine (mute_log _ _ _).bind fun _ => ?_
  refine (mute_perform _ _).bind fun answer => ?_
  obtain ⟨result, said⟩ := answer
  dsimp only
  split
  · exact (mute_log _ _ _).bind fun _ => mute_pure _
  · exact mute_pure _

/-! ## Resolving by itself -/

/-- Settings have the sources that are found without them. -/
theorem Settings.sources_of_resolve {document : SettingsDocument} {o : Overrides}
    {settings : Settings} (h : resolve document o = .ok settings) :
    sources document o = .ok settings.toFileSources := by
  obtain ⟨parser, -, h⟩ := bind_eq_ok_iff.1 h
  obtain ⟨mode, -, h⟩ := bind_eq_ok_iff.1 h
  obtain ⟨found, hfound, h⟩ := bind_eq_ok_iff.1 h
  split at h
  · cases h
  · cases h
    exact hfound

namespace Check

open FileTree (spot_root)
open Selection (resolve_eq_ok_ofList)

variable {respond : Responder} {clock : Clock} {request : CheckRequest}

/-- The request for the files to check by themselves. -/
def filesOnly (request : CheckRequest) (listOut : Option String) : ResolveRequest :=
  ⟨request.workspace, request.document, request.overrides, .files, listOut⟩

theorem source_filesOnly {settings : Settings} (h : settingsOf request = .ok settings)
    (listOut : Option String) : (filesOnly request listOut).source = .ok settings.files := by
  obtain ⟨document, hdocument, h⟩ := bind_eq_ok_iff.1 h
  have hsources := Settings.sources_of_resolve (mapError_eq_ok_iff.1 h)
  refine bind_eq_ok_iff.2 ⟨document, hdocument, ?_⟩
  exact bind_eq_ok_iff.2 ⟨_, mapError_eq_ok_iff.2 hsources, rfl⟩

/-- What is listed by itself is what the check resolves. -/
theorem files_of_filesOnly {settings : Settings} (h : settingsOf request = .ok settings)
    {listOut : Option String} {tree tree' : FileTree} {files : FileSet}
    (hfiles : (filesOnly request listOut).run.Gives tree files tree') :
    (Selection.resolve tree request.workspace settings.files).outcome = .ok files := by
  obtain ⟨source, _, hfirst, hrest⟩ := gives_bind_iff.1 hfiles
  obtain ⟨hsource, rfl⟩ := gives_ofExcept_iff.1 hfirst
  obtain rfl : source = settings.files :=
    Except.ok.inj (hsource.symm.trans (source_filesOnly h listOut))
  obtain ⟨found, _, hlook, hlist⟩ := gives_bind_iff.1 hrest
  obtain ⟨hfound, rfl⟩ := gives_look_iff.1 hlook
  have hsame : files = found := by
    dsimp only at hlist
    split at hlist
    · obtain ⟨-, _, -, hlist⟩ := gives_bind_iff.1 hlist
      rw [(quiet_log _ _ _).gives_bind_iff] at hlist
      exact (gives_pure_iff.1 hlist).1
    · exact (gives_pure_iff.1 hlist).1
  rw [hsame]
  exact hfound

/-- What the check resolves is listed by itself, if nothing is to be written. -/
theorem filesOnly_of_files {settings : Settings} (h : settingsOf request = .ok settings)
    {tree : FileTree} {files : FileSet}
    (hfiles : (Selection.resolve tree request.workspace settings.files).outcome = .ok files) :
    (filesOnly request none).run.Gives tree files tree := by
  refine gives_bind_iff.2 ⟨_, tree, gives_ofExcept_iff.2 ⟨source_filesOnly h none, rfl⟩, ?_⟩
  exact gives_bind_iff.2 ⟨files, tree, gives_look_iff.2 ⟨hfiles, rfl⟩, gives_pure_iff.2 ⟨rfl, rfl⟩⟩

/-! ## Whole checks -/

/-- The calls of a check are those for its files to check. -/
theorem calls_run {settings : Settings} {targets invalid : FileSet} {tree : FileTree}
    (hsettings : settingsOf request = .ok settings)
    (htargets : (Selection.resolve tree request.workspace settings.files).outcome = .ok targets)
    (hinvalid :
      (Selection.resolve tree request.workspace settings.invalidFiles).outcome = .ok invalid) :
    (run respond clock request tree).traced.calls =
      (collect respond settings targets request.workspace tree).traced.calls := by
  have hlook : ∀ {context : String} {source : FileSource}, (Action.within context
      (Action.look fun t => Selection.resolve t request.workspace source)).Mute := by
    intro context source
    exact (mute_look fun t => Selection.mute_resolve t request.workspace source).within context
  unfold run
  refine ((mute_ofExcept _).calls_bind (gives_ofExcept_iff.2 ⟨hsettings, rfl⟩) _).trans ?_
  refine (hlook.calls_bind (gives_within_iff.2 (gives_look_iff.2 ⟨htargets, rfl⟩)) _).trans ?_
  refine (calls_ite_log_bind _ _ _ _ tree).trans ?_
  refine (hlook.calls_bind (gives_within_iff.2 (gives_look_iff.2 ⟨hinvalid, rfl⟩)) _).trans ?_
  refine (calls_log_bind _ _ _ _ tree).trans ?_
  refine calls_bind_of_mute (fun scanned => ?_) _ tree
  exact (mute_log _ _ _).bind fun _ => mute_pure _

theorem utf8ByteSize_replicate (n : Nat) (c : Char) :
    (String.ofList (List.replicate n c)).utf8ByteSize = n * c.utf8Size := by
  rw [String.utf8ByteSize_ofList]
  induction n with
  | zero => rw [Nat.zero_mul]; rfl
  | succ n ih => rw [List.replicate_succ, String.utf8Len_cons, ih, Nat.succ_mul]

/-- Every file is handed to the parser exactly once.  For each set of files there are runs in which
it is handed over: if no call fails, there is one call for each run, and otherwise there is one for
each run up to the call that fails.  What a check hands over is what is listed when its files are
resolved by themselves. -/
theorem handed_over_once (respond : Responder)
    (hmute : ∀ made invocation, (respond made invocation).Mute) :
    (∀ settings files, ∃ runs, HandsOver settings files runs ∧ ∀ directory tree,
      (∀ out, (collect respond settings files directory tree).traced.outcome = .ok out →
        (collect respond settings files directory tree).traced.calls =
          callsFor settings directory runs) ∧
      ∀ e, (collect respond settings files directory tree).traced.outcome = .error e →
        ∃ before run after, runs = before ++ run :: after ∧
          (collect respond settings files directory tree).traced.calls =
            callsFor settings directory (before ++ [run]) ∧
          CallFails respond settings directory before.length run e) ∧
    ∀ clock request tree result,
      (run respond clock request tree).traced.outcome = .ok result →
        ∃ targets runs, HandsOver result.settings targets runs ∧
          (run respond clock request tree).traced.calls =
            callsFor result.settings request.workspace runs ∧
          ((filesOnly request none).run tree).traced.outcome = .ok targets ∧
          ∀ listOut files, ((filesOnly request listOut).run tree).traced.outcome = .ok files →
            files = targets := by
  constructor
  · intro settings files
    refine ⟨runsFor settings files, handsOver_runsFor settings files, fun directory tree => ?_⟩
    rw [calls_collect]
    constructor
    · intro out hout
      exact calls_callRuns_of_gives hmute (collect_gives_iff.1 (gives_of_outcome hout))
    · intro e he
      have hfails := calls_callRuns_of_fails hmute (collect_fails_iff.1 he)
      simpa only [Nat.zero_add] using hfails
  · intro clock request tree result hresult
    obtain ⟨settings, targets, invalid, scanned, hsettings, htargets, hinvalid, hscanned, rfl⟩ :=
      run_gives_iff.1 (gives_of_outcome hresult)
    refine ⟨targets, runsFor settings targets, handsOver_runsFor settings targets, ?_,
      (filesOnly_of_files hsettings htargets).outcome, ?_⟩
    · rw [calls_run hsettings htargets hinvalid, calls_collect]
      exact calls_callRuns_of_gives hmute (collect_gives_iff.1 hscanned)
    · intro listOut files hfiles
      have hlisted := files_of_filesOnly hsettings (gives_of_outcome hfiles)
      exact Except.ok.inj (hlisted.symm.trans htargets)

/-- With an argument of 29985 octets two short files fill a command line to the last octet, and a
third file has a call of its own.  A check in the other mode has a call for each file. -/
theorem handed_over_once_split :
    let respond : Responder := fun _ _ => Action.pure ⟨"", some 0⟩
    let long := String.ofList (List.replicate 29985 'x')
    let settings : Settings :=
      ⟨⟨⟨[], none, .patterns⟩, ⟨[], none, .patterns⟩⟩, "p", [long], .batch, 50⟩
    let files : FileSet := .ofList [⟨"a"⟩, ⟨"b"⟩, ⟨"c"⟩]
    let request : CheckRequest := ⟨"/", none, "", { Overrides.none with
      parser := some "p", parserArgs := some ["-q"], mode := some "per-file",
      files := ["*.py"] }⟩
    let tree : FileTree := ⟨.directory (["a.py", "b.py", "c"].map fun name =>
      (Octets.ofText name, .file [] false)), []⟩
    let clock : Clock := ⟨default, default⟩
    (∀ made invocation, (respond made invocation).Mute) ∧
      (∃ out, (collect respond settings files "/" tree).traced.outcome = .ok out) ∧
      (collect respond settings files "/" tree).traced.calls =
        [⟨"p", [long, "a", "b"], "/"⟩, ⟨"p", [long, "c"], "/"⟩] ∧
      (∃ runs, HandsOver settings files runs ∧
        (collect respond settings files "/" tree).traced.calls = callsFor settings "/" runs) ∧
      ∃ result, (run respond clock request tree).traced.outcome = .ok result ∧
        (run respond clock request tree).traced.calls =
          [⟨"p", ["-q", "a.py"], "/"⟩, ⟨"p", ["-q", "b.py"], "/"⟩] ∧
        ∃ targets runs, HandsOver result.settings targets runs ∧
          (run respond clock request tree).traced.calls = callsFor result.settings "/" runs ∧
          ((filesOnly request none).run tree).traced.outcome = .ok targets := by
  intro respond long settings files request tree clock
  have hmute : ∀ made invocation, (respond made invocation).Mute := fun _ _ => mute_pure _
  obtain ⟨hcollect, hcheck⟩ := handed_over_once respond hmute
  have hfixed : fixedCost "p" [long] = 29992 := by
    rw [fixedCost_eq, lineCost_cons, lineCost_cons, utf8ByteSize_replicate]
    decide +kernel
  have hruns : runsFor settings files = [[⟨"a"⟩, ⟨"b"⟩], [⟨"c"⟩]] := by
    show runs "p" [long] files = _
    unfold runs
    rw [hfixed]
    decide +kernel
  have hgives : ∀ settings files, ∃ out last,
      (collect respond settings files "/").Gives tree out last := by
    intro settings files
    have hread : ∀ run, ∃ out, scanRun settings "/" run "" = .ok out :=
      fun run => ⟨_, scanRun_eq_ok_iff.2 rfl⟩
    choose read hread using hread
    have hprints : ∀ run ∈ runsFor settings files,
        Prints respond settings "/" (fun _ => "") run := fun _ _ _ t => ⟨some 0, t, rfl, rfl⟩
    obtain ⟨last, hcalls⟩ := callRuns_gives_of_read hprints (fun run _ => hread run) 0 tree
    exact ⟨_, last, collect_gives_iff.2 hcalls⟩
  have hcalls : ∀ {settings files out last},
      (collect respond settings files "/").Gives tree out last →
        (collect respond settings files "/" tree).traced.calls =
          callsFor settings "/" (runsFor settings files) := by
    intro settings files out last h
    rw [calls_collect, calls_callRuns_of_gives hmute (collect_gives_iff.1 h)]
  obtain ⟨out, last, hcollected⟩ := hgives settings files
  refine ⟨hmute, ⟨out, hcollected.outcome⟩, ?_, ?_, ?_⟩
  · rw [hcalls hcollected, hruns]
    rfl
  · obtain ⟨runs, hruns, hmade⟩ := hcollect settings files
    exact ⟨runs, hruns, (hmade "/" tree).1 out hcollected.outcome⟩
  · let checked : Settings := ⟨⟨⟨["*.py"], none, .patterns⟩, ⟨[], none, .patterns⟩⟩, "p", ["-q"],
      .perFile, 50⟩
    let targets : FileSet := .ofList [⟨"a.py"⟩, ⟨"b.py"⟩]
    have hsettings : settingsOf request = .ok checked := by decide +kernel
    have htargets : (Selection.resolve tree "/" checked.files).outcome = .ok targets := by
      apply resolve_eq_ok_ofList
      unfold Selection.resolve Selection.expand Selection.visits
      rw [spot_root]
      decide +kernel
    have hinvalid : (Selection.resolve tree "/" checked.invalidFiles).outcome =
        .ok (.ofList []) := by
      apply resolve_eq_ok_ofList
      decide +kernel
    obtain ⟨scanned, last, hscanned⟩ := hgives checked targets
    have hresult : (run respond clock request).Gives tree _ last :=
      run_gives_iff.2 ⟨checked, targets, .ofList [], scanned, hsettings, htargets, hinvalid,
        hscanned, rfl⟩
    refine ⟨_, hresult.outcome, ?_, ?_⟩
    · rw [calls_run hsettings htargets hinvalid]
      refine (hcalls hscanned).trans ?_
      decide +kernel
    · obtain ⟨targets, runs, hruns, hmade, hlisted, -⟩ :=
        hcheck clock request tree _ hresult.outcome
      exact ⟨targets, runs, hruns, hmade, hlisted⟩

end Check

end ParseAudit
