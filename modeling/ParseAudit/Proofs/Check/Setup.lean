import ParseAudit.Proofs.Check.Handover
/-!
# What a check needs before it calls the parser

The settings and both sets of files are resolved first.  If one of them cannot be, the check fails
without a call, and never because of parser output.

* `ScanFree`: outcomes that are no scan failures;
* `Unresolved`, `Planned`: the two ways in which the setup of a check can end;
* `unresolved_or_planned`, `unresolved_fails`, `planned_fails_iff`: what comes of a check in each.
-/

namespace ParseAudit

open ParseAudit.Action

variable {α β ε : Type}

/-! ## Outcomes that parser output has no part in -/

/-- An outcome that is no scan failure. -/
def ScanFree (x : Except Failure α) : Prop := ∀ e, x = .error e → e.cause.isScan = false

theorem scanFree_ok (a : α) : ScanFree (.ok a : Except Failure α) := nofun

theorem scanFree_error {e : Failure} (h : e.cause.isScan = false) :
    ScanFree (.error e : Except Failure α) := by
  rintro _ ⟨⟩
  exact h

theorem ScanFree.bind {x : Except Failure α} (hx : ScanFree x) {f : α → Except Failure β}
    (hf : ∀ a, ScanFree (f a)) : ScanFree (x >>= f) := by
  cases x with
  | error e => exact scanFree_error (hx e rfl)
  | ok a => exact hf a

/-- A context does not change the cause of a failure. -/
theorem ScanFree.mapError {x : Except Failure α} (hx : ScanFree x) (context : String) :
    ScanFree (x.mapError (.within context)) := by
  cases x with
  | error e => exact scanFree_error (hx e rfl)
  | ok a => exact scanFree_ok a

theorem scanFree_within {context : String} {toCause : ε → Cause}
    (h : ∀ e, (toCause e).isScan = false) (x : Except ε α) :
    ScanFree (Except.within context toCause x) := by
  cases x with
  | error e => exact scanFree_error (h e)
  | ok a => exact scanFree_ok a

theorem scanFree_mapError_config (x : Except ConfigError α) :
    ScanFree (x.mapError fun e => ⟨[], .config e⟩) := by
  cases x with
  | error e => exact scanFree_error rfl
  | ok a => exact scanFree_ok a

theorem scanFree_mapM {f : α → Except Failure β} (hf : ∀ a, ScanFree (f a)) (l : List α) :
    ScanFree (l.mapM f) := by
  induction l with
  | nil => exact scanFree_ok _
  | cons a l ih =>
    rw [List.mapM_cons]
    exact (hf a).bind fun b => ih.bind fun bs => scanFree_ok _

theorem scanFree_forM {f : α → Except Failure Unit} (hf : ∀ a, ScanFree (f a)) (l : List α) :
    ScanFree (l.forM f) := by
  induction l with
  | nil => exact scanFree_ok _
  | cons a l ih => exact (hf a).bind fun _ => ih

/-- One traced computation after another is no scan failure if neither is. -/
theorem Traced.scanFree_bind {x : Traced α} (hx : ScanFree x.outcome) {f : α → Traced β}
    (hf : ∀ a, ScanFree (f a).outcome) : ScanFree (x >>= f).outcome := by
  rw [outcome_bind]
  exact hx.bind hf

/-! ## Settings -/

namespace Settings

theorem scanFree_sourceOf (values : List String) (listFile listKind : Option String) :
    ScanFree (sourceOf values listFile listKind) := by
  have hpattern : ∀ pattern, ScanFree (checkPattern pattern) := by
    intro pattern
    unfold checkPattern
    split
    · exact scanFree_ok _
    · exact scanFree_error rfl
  have hkind : ScanFree (listKindOf listKind) := by
    unfold listKindOf
    split
    · exact scanFree_ok _
    · exact scanFree_mapError_config _
  unfold sourceOf
  exact (scanFree_forM hpattern _).bind fun _ => hkind.bind fun _ => scanFree_ok _

theorem scanFree_sources (document : SettingsDocument) (o : Overrides) :
    ScanFree (sources document o) := by
  unfold sources
  refine ((scanFree_sourceOf _ _ _).mapError _).bind fun files => ?_
  exact ((scanFree_sourceOf _ _ _).mapError _).bind fun invalidFiles => scanFree_ok _

theorem scanFree_resolve (document : SettingsDocument) (o : Overrides) :
    ScanFree (resolve document o) := by
  have hparser : ∀ name, ScanFree (parserOf name) := by
    intro name
    unfold parserOf
    split
    · exact scanFree_ok _
    · exact scanFree_error rfl
  have hmode : ∀ name, ScanFree (modeOf name) := by
    intro name
    unfold modeOf
    split
    · exact scanFree_ok _
    · exact scanFree_mapError_config _
  unfold resolve
  refine (hparser _).bind fun parser => (hmode _).bind fun mode => ?_
  refine (scanFree_sources document o).bind fun found => ?_
  split
  · exact scanFree_error rfl
  · exact scanFree_ok _

end Settings

theorem SettingsDocument.scanFree_parseOrEmpty (document : String) :
    ScanFree (parseOrEmpty document) := by
  have hparse : ScanFree (parse document) := by
    unfold parse
    split
    · exact scanFree_ok _
    · exact scanFree_error rfl
  unfold parseOrEmpty
  split
  · exact scanFree_ok _
  · exact hparse.mapError _

/-! ## Sets of files -/

theorem PatternSet.scanFree_compile (patterns : List String) (base : String) :
    ScanFree (compile patterns base) := by
  have hpattern : ∀ text, ScanFree (SelectionPattern.compile text base) := by
    intro text
    unfold SelectionPattern.compile
    refine (scanFree_within (fun _ => rfl) _).bind fun itself => ?_
    exact (scanFree_within (fun _ => rfl) _).bind fun beneath => scanFree_ok _
  have hnesting : ∀ context found, ScanFree (checkNesting context found) :=
    fun context found => scanFree_within (fun _ => rfl) _
  unfold compile
  refine (scanFree_mapM hpattern _).bind fun found => ?_
  exact (hnesting _ _).bind fun _ => (hnesting _ _).bind fun _ => scanFree_ok _

namespace Selection

theorem scanFree_visits (t : FileTree) (base : String) : ScanFree (visits t base).outcome := by
  unfold visits
  dsimp only
  split <;> exact scanFree_ok _

theorem scanFree_pathsOf (base : String) (found : List Visit) :
    ScanFree (pathsOf base found).outcome := by
  induction found with
  | nil => exact scanFree_ok _
  | cons visit found ih =>
    have hpath : ScanFree (pathOf visit base).outcome := by
      unfold pathOf
      split <;> exact scanFree_ok _
    unfold pathsOf
    exact Traced.scanFree_bind hpath fun first => Traced.scanFree_bind ih fun others =>
      scanFree_ok _

theorem scanFree_listEntries (t : FileTree) (base : String) (source : FileSource) :
    ScanFree (listEntries t base source).outcome := by
  have hread : ∀ path, ScanFree (ListFile.read t path).outcome := by
    intro path
    unfold ListFile.read
    split
    · exact Traced.scanFree_bind (scanFree_within (fun _ => rfl) _) fun text => scanFree_ok _
    · exact scanFree_ok _
  unfold listEntries
  split
  · exact scanFree_ok _
  · exact Traced.scanFree_bind (hread _) fun found => scanFree_ok _

/-- Resolving a set of files never ends in a scan failure. -/
theorem scanFree_resolve (t : FileTree) (base : String) (source : FileSource) :
    ScanFree (resolve t base source).outcome := by
  have hexpand : ∀ set, ScanFree (expand t base set).outcome := by
    intro set
    unfold expand
    refine Traced.scanFree_bind (scanFree_visits t base) fun found => ?_
    exact Traced.scanFree_bind (scanFree_pathsOf base _) fun paths => scanFree_ok _
  unfold resolve
  refine Traced.scanFree_bind (scanFree_listEntries t base source) fun entries => ?_
  refine Traced.scanFree_bind (PatternSet.scanFree_compile _ base) fun set => ?_
  dsimp only
  split
  · exact Traced.scanFree_bind (hexpand set) fun matched => scanFree_ok _
  · exact scanFree_ok _

end Selection

/-! ## Running programs -/

/-- A program that cannot be run makes no scan failure. -/
theorem Script.isScan_of_respond_fails {environment : Environment} {made : Nat}
    {invocation : Invocation} {t : FileTree} {e : Failure}
    (h : (respond environment made invocation).Fails t e) : e.cause.isScan = false := by
  unfold respond at h
  rw [(quiet_log _ _ _).fails_bind_iff, fails_bind_iff] at h
  rcases h with hperform | ⟨⟨result, said⟩, mid, -, hrest⟩
  · exact scanFree_within (fun _ => rfl) _ e hperform
  · dsimp only at hrest
    exact absurd ((quiet_log _ _ _).fails_ite_iff.1 hrest) not_fails_pure

/-! ## The setup of a check -/

namespace Check

open Invocation

/-- Why a check cannot go on before the parser is called. -/
inductive Unresolved (request : CheckRequest) (tree : FileTree) : Failure → Prop where
  /-- The settings cannot be resolved. -/
  | settings {e : Failure} (h : settingsOf request = .error e) : Unresolved request tree e
  /-- The files to check cannot be resolved. -/
  | files {settings : Settings} {e : Failure} (hsettings : settingsOf request = .ok settings)
      (h : (Selection.resolve tree request.workspace settings.files).outcome = .error e) :
      Unresolved request tree (e.within "resolve files")
  /-- The files of the allowlist cannot be resolved. -/
  | invalidFiles {settings : Settings} {targets : FileSet} {e : Failure}
      (hsettings : settingsOf request = .ok settings)
      (htargets : (Selection.resolve tree request.workspace settings.files).outcome = .ok targets)
      (h : (Selection.resolve tree request.workspace settings.invalidFiles).outcome = .error e) :
      Unresolved request tree (e.within "resolve invalid files")

/-- The settings and both sets of files can be resolved, so that the parser is called. -/
structure Planned (request : CheckRequest) (tree : FileTree) (settings : Settings)
    (targets : FileSet) : Prop where
  settings_eq : settingsOf request = .ok settings
  targets_eq : (Selection.resolve tree request.workspace settings.files).outcome = .ok targets
  invalid_eq : ∃ invalid,
    (Selection.resolve tree request.workspace settings.invalidFiles).outcome = .ok invalid

variable {respond : Responder} {clock : Clock} {request : CheckRequest} {tree : FileTree}

/-- There is no third way. -/
theorem unresolved_or_planned (request : CheckRequest) (tree : FileTree) :
    (∃ e, Unresolved request tree e) ∨
      ∃ settings targets, Planned request tree settings targets := by
  cases hsettings : settingsOf request with
  | error e => exact .inl ⟨e, .settings hsettings⟩
  | ok settings =>
    cases htargets : (Selection.resolve tree request.workspace settings.files).outcome with
    | error e => exact .inl ⟨_, .files hsettings htargets⟩
    | ok targets =>
      cases hinvalid :
          (Selection.resolve tree request.workspace settings.invalidFiles).outcome with
      | error e => exact .inl ⟨_, .invalidFiles hsettings htargets hinvalid⟩
      | ok invalid => exact .inr ⟨settings, targets, hsettings, htargets, invalid, hinvalid⟩

/-- What keeps a check from calling the parser is no scan failure. -/
theorem Unresolved.isScan {e : Failure} (h : Unresolved request tree e) :
    e.cause.isScan = false := by
  cases h with
  | settings h =>
    have hsettings : ScanFree (settingsOf request) := by
      unfold settingsOf
      refine (SettingsDocument.scanFree_parseOrEmpty _).bind fun document => ?_
      exact (Settings.scanFree_resolve document _).mapError _
    exact hsettings _ h
  | @files settings e hsettings h => exact Selection.scanFree_resolve _ _ _ e h
  | @invalidFiles settings targets e hsettings htargets h =>
    exact Selection.scanFree_resolve _ _ _ e h

section Resolving

variable {context : String} {source : FileSource}

/-- The step of a check that resolves a set of files. -/
def resolving (request : CheckRequest) (context : String) (source : FileSource) : Action FileSet :=
  (Action.look fun t => Selection.resolve t request.workspace source).within context

theorem mute_resolving : (resolving request context source).Mute :=
  (mute_look fun t => Selection.mute_resolve t request.workspace source).within context

theorem resolving_gives {files : FileSet}
    (h : (Selection.resolve tree request.workspace source).outcome = .ok files) :
    (resolving request context source).Gives tree files tree :=
  gives_within_iff.2 (gives_look_iff.2 ⟨h, rfl⟩)

theorem resolving_fails (context : String) {e : Failure}
    (h : (Selection.resolve tree request.workspace source).outcome = .error e) :
    (resolving request context source).Fails tree (e.within context) := by
  show (Selection.resolve tree request.workspace source).outcome.mapError _ = _
  rw [h]
  rfl

end Resolving

theorem settingsOf_gives {settings : Settings} (h : settingsOf request = .ok settings) :
    (Action.ofExcept (settingsOf request)).Gives tree settings tree :=
  gives_ofExcept_iff.2 ⟨h, rfl⟩

/-- A check that cannot be set up fails without a call. -/
theorem unresolved_fails {e : Failure} (h : Unresolved request tree e) :
    (run respond clock request).Fails tree e ∧
      (run respond clock request tree).traced.calls = [] := by
  cases h with
  | settings h =>
    have hfails : (Action.ofExcept (settingsOf request)).Fails tree e := h
    exact ⟨fails_bind_iff.2 (.inl hfails), calls_bind_of_fails hfails _⟩
  | files hsettings h =>
    have hfails := resolving_fails "resolve files" h
    constructor
    · exact (settingsOf_gives hsettings).fails_bind_iff.2 (fails_bind_iff.2 (.inl hfails))
    · refine ((mute_ofExcept _).calls_bind (settingsOf_gives hsettings) _).trans ?_
      exact (calls_bind_of_fails hfails _).trans (mute_resolving tree)
  | invalidFiles hsettings htargets h =>
    have hfails := resolving_fails "resolve invalid files" h
    constructor
    · refine (settingsOf_gives hsettings).fails_bind_iff.2 ?_
      refine (resolving_gives htargets).fails_bind_iff.2 ?_
      exact (quiet_log _ _ _).fails_ite_iff.2 (fails_bind_iff.2 (.inl hfails))
    · refine ((mute_ofExcept _).calls_bind (settingsOf_gives hsettings) _).trans ?_
      refine (mute_resolving.calls_bind (resolving_gives htargets) _).trans ?_
      refine (calls_ite_log_bind _ _ _ _ tree).trans ?_
      exact (calls_bind_of_fails hfails _).trans (mute_resolving tree)

/-- A check that is set up fails as its calls do. -/
theorem planned_fails_iff {settings : Settings} {targets : FileSet} {e : Failure}
    (h : Planned request tree settings targets) :
    (run respond clock request).Fails tree e ↔
      (collect respond settings targets request.workspace).Fails tree e := by
  obtain ⟨invalid, hinvalid⟩ := h.invalid_eq
  refine (settingsOf_gives h.settings_eq).fails_bind_iff.trans ?_
  refine (resolving_gives h.targets_eq).fails_bind_iff.trans ?_
  refine (quiet_log _ _ _).fails_ite_iff.trans ?_
  refine (resolving_gives hinvalid).fails_bind_iff.trans ?_
  refine (quiet_log _ _ _).fails_bind_iff.trans ?_
  rw [fails_bind_iff]
  constructor
  · rintro (hfails | ⟨scanned, mid, -, hreport⟩)
    · exact hfails
    · exact absurd ((quiet_log _ _ _).fails_bind_iff.1 hreport) not_fails_pure
  · exact .inl

end Check

end ParseAudit
