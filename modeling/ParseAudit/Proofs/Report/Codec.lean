import ParseAudit.Proofs.Report.Fields
import ParseAudit.Proofs.Timestamp
/-!
# Reports are read back

Each record of a report is kept by writing it to JSON and reading it: what is absent is left out and
read as absent, and `null` as the data of a finding is left out and read as `null`.

* `Location.kept`, `Finding.kept`, `Verdict.kept`, `Tool.kept`, `Run.kept`, `Summary.kept`: the
  records of a report;
* `Report.kept`: a report, if the data of its findings can be read back.
-/

namespace ParseAudit

open Json

variable {n : Nat}

theorem RepoPath.kept (p : RepoPath) : Kept n RepoPath.ofJson? RepoPath.toJson p :=
  ⟨.str p.text, nofun, rfl⟩

theorem Severity.kept (s : Severity) :
    Kept n (fun v => v.caseName?.bind Severity.ofName?) (fun s => .str s.name) s where
  plain := .str s.name
  ne_null := nofun
  read := by cases s <;> decide

theorem VerdictStatus.kept (s : VerdictStatus) :
    Kept n (fun v => v.caseName?.bind VerdictStatus.ofName?) (fun s => .str s.name) s where
  plain := .str s.name
  ne_null := nofun
  read := by cases s <;> decide

theorem Timestamp.kept (t : Timestamp) : Kept n Run.timestamp? (fun t => .str t.text) t where
  plain := .str t.text
  ne_null := nofun
  read := by
    show (Json.text? (.str t.text)).bind Timestamp.parse? = some t
    rw [Json.text?, Option.bind_some, parse?_text]

theorem kept_labels (o : Option String) : ∀ s ∈ o, Kept n text? .str s := fun s _ => kept_text s

theorem kept_numbers (o : Option UInt32) : ∀ k ∈ o, Kept n uint32? ofUInt32 k :=
  fun k _ => kept_uint32 k

theorem kept_paths (l : List RepoPath) :
    Kept (n + 1) (list? RepoPath.ofJson?) (fun l => .arr (l.map RepoPath.toJson)) l :=
  kept_list fun p _ => p.kept

theorem Location.kept (l : Location) : Kept (n + 1) Location.ofJson? Location.toJson l := by
  have hpath : Kept n _ _ l.path := l.path.kept
  have hline := kept_numbers (n := n) l.line
  have hcolumn := kept_numbers (n := n) l.column
  have hendLine := kept_numbers (n := n) l.endLine
  have hendColumn := kept_numbers (n := n) l.endColumn
  refine Kept.ofMembers _ rfl (by simp) ?_ fun members hget => ?_
  · simp only [List.forall_mem_cons]
    exact ⟨hpath.plain_some, plain_of_kept hline, plain_of_kept hcolumn, plain_of_kept hendLine,
      plain_of_kept hendColumn, nofun⟩
  · simp only [List.forall_mem_cons] at hget
    obtain ⟨hget0, hget1, hget2, hget3, hget4, -⟩ := hget
    simp only [Location.ofJson?, Fields.of?, Option.bind_eq_bind, Option.bind_some,
      hpath.required hget0, nullable_of_kept hline hget1, nullable_of_kept hcolumn hget2,
      optional_orNull_of_kept hendLine hget3, optional_orNull_of_kept hendColumn hget4]
    rfl

/-- A finding is kept if its data can be read back and are in order. -/
theorem Finding.kept {f : Finding} (hplain : Plain (n + 1) f.data) (hordered : Ordered f.data) :
    Kept (n + 2) Finding.ofJson? Finding.toJson f := by
  have hseverity : Kept (n + 1) _ _ f.severity := f.severity.kept
  have hcheckId : Kept (n + 1) _ _ f.checkId := kept_text f.checkId
  have hcode : Kept (n + 1) _ _ f.code := kept_text f.code
  have hmessage : Kept (n + 1) _ _ f.message := kept_text f.message
  have hlocation : ∀ l ∈ f.location, Kept (n + 1) Location.ofJson? Location.toJson l :=
    fun l _ => l.kept
  have hhelp := kept_labels (n := n + 1) f.help
  have hfingerprint := kept_labels (n := n + 1) f.fingerprint
  refine Kept.ofMembers _ rfl (by simp) ?_ fun members hget => ?_
  · simp only [List.forall_mem_cons]
    refine ⟨hseverity.plain_some, hcheckId.plain_some, hcode.plain_some, hmessage.plain_some,
      plain_of_kept hlocation, plain_of_kept hhelp, plain_of_kept hfingerprint, ?_, nofun⟩
    intro v hv
    split at hv
    · cases hv
    · cases hv
      exact hplain
  · simp only [List.forall_mem_cons] at hget
    obtain ⟨hget0, hget1, hget2, hget3, hget4, hget5, hget6, hget7, -⟩ := hget
    have hdata : Fields.optional (.named members) 7 "data" .null some = some f.data := by
      have hvalue : (Fields.named members).value? 7 "data" = _ := hget7
      rw [Fields.optional, hvalue]
      by_cases hnull : f.data = .null
      · rw [if_pos hnull, hnull]
        rfl
      · rw [if_neg hnull, Option.map_some, hordered.sorted_eq_self]
    simp only [Finding.ofJson?, Fields.of?, Option.bind_eq_bind, Option.bind_some,
      hseverity.required hget0, hcheckId.required hget1, hcode.required hget2,
      hmessage.required hget3, nullable_of_kept hlocation hget4, nullable_of_kept hhelp hget5,
      nullable_of_kept hfingerprint hget6, hdata]
    rfl

theorem VerdictCounts.kept (c : VerdictCounts) :
    Kept (n + 1) VerdictCounts.ofJson? VerdictCounts.toJson c := by
  have hinfo : Kept n _ _ c.info := kept_uint32 c.info
  have hwarn : Kept n _ _ c.warn := kept_uint32 c.warn
  have herror : Kept n _ _ c.error := kept_uint32 c.error
  refine Kept.ofMembers [("info", some (.ofUInt32 c.info)),
    ("warn", some (.ofUInt32 c.warn)), ("error", some (.ofUInt32 c.error))] rfl (by simp) ?_
    fun members hget => ?_
  · simp only [List.forall_mem_cons]
    exact ⟨hinfo.plain_some, hwarn.plain_some, herror.plain_some, nofun⟩
  · simp only [List.forall_mem_cons] at hget
    obtain ⟨hget0, hget1, hget2, -⟩ := hget
    simp only [VerdictCounts.ofJson?, Fields.of?, Option.bind_eq_bind, Option.bind_some,
      hinfo.required hget0, hwarn.required hget1, herror.required hget2]
    rfl

theorem Verdict.kept (v : Verdict) : Kept (n + 2) Verdict.ofJson? Verdict.toJson v := by
  have hstatus : Kept (n + 1) _ _ v.status := v.status.kept
  have hcounts : Kept (n + 1) _ _ v.counts := v.counts.kept
  have hreasons : Kept (n + 1) (list? text?) Json.strings v.reasons :=
    kept_list fun s _ => kept_text s
  refine Kept.ofMembers [("status", some (.str v.status.name)),
    ("counts", some v.counts.toJson), ("reasons", some (.strings v.reasons))] rfl (by simp) ?_
    fun members hget => ?_
  · simp only [List.forall_mem_cons]
    exact ⟨hstatus.plain_some, hcounts.plain_some, hreasons.plain_some, nofun⟩
  · simp only [List.forall_mem_cons] at hget
    obtain ⟨hget0, hget1, hget2, -⟩ := hget
    simp only [Verdict.ofJson?, Fields.of?, Option.bind_eq_bind, Option.bind_some,
      hstatus.required hget0, hcounts.required hget1, hreasons.optional hget2]
    rfl

theorem Tool.kept (t : Tool) : Kept (n + 1) Tool.ofJson? Tool.toJson t := by
  have hname : Kept n _ _ t.name := kept_text t.name
  have hversion : Kept n _ _ t.version := kept_text t.version
  refine Kept.ofMembers [("name", some (.str t.name)), ("version", some (.str t.version))]
    rfl (by simp) ?_ fun members hget => ?_
  · simp only [List.forall_mem_cons]
    exact ⟨hname.plain_some, hversion.plain_some, nofun⟩
  · simp only [List.forall_mem_cons] at hget
    obtain ⟨hget0, hget1, -⟩ := hget
    simp only [Tool.ofJson?, Fields.of?, Option.bind_eq_bind, Option.bind_some,
      hname.required hget0, hversion.required hget1]
    rfl

theorem Run.kept (r : Run) : Kept (n + 1) Run.ofJson? Run.toJson r := by
  have hstart : Kept n _ _ r.startedAt := r.startedAt.kept
  have hend : ∀ t ∈ r.endedAt, Kept n Run.timestamp? (fun t => .str t.text) t := fun t _ => t.kept
  have hduration : ∀ d ∈ r.durationMs, Kept n uint64? (fun d => .num (.ofUInt64 d)) d :=
    fun d _ => kept_uint64 d
  have hos := kept_labels (n := n) r.os
  refine Kept.ofMembers _ rfl (by simp) ?_ fun members hget => ?_
  · simp only [List.forall_mem_cons]
    exact ⟨hstart.plain_some, plain_of_kept hend, plain_of_kept hduration, plain_of_kept hos,
      nofun⟩
  · simp only [List.forall_mem_cons] at hget
    obtain ⟨hget0, hget1, hget2, hget3, -⟩ := hget
    simp only [Run.ofJson?, Fields.of?, Option.bind_eq_bind, Option.bind_some,
      hstart.required hget0, optional_orNull_of_kept hend hget1,
      optional_orNull_of_kept hduration hget2, optional_orNull_of_kept hos hget3]
    rfl

theorem Summary.kept (s : Summary) : Kept (n + 2) Summary.ofJson? Summary.toJson s := by
  have hparser : Kept (n + 1) _ _ s.parser := kept_text s.parser
  have hmode : Kept (n + 1) _ _ s.mode := kept_text s.mode
  have htotal : Kept (n + 1) _ _ s.totalFiles := kept_uint32 s.totalFiles
  have hsuccessful : Kept (n + 1) _ _ s.successful := kept_uint32 s.successful
  have hinvalid : Kept (n + 1) _ _ s.expectedInvalid := kept_uint32 s.expectedInvalid
  have hfailures := kept_paths (n := n) s.failures
  have hviolations := kept_paths (n := n) s.allowlistViolations
  refine Kept.ofMembers [("parser", some (.str s.parser)), ("mode", some (.str s.mode)),
    ("total_files", some (.ofUInt32 s.totalFiles)), ("successful", some (.ofUInt32 s.successful)),
    ("expected_invalid", some (.ofUInt32 s.expectedInvalid)),
    ("failures", some (.arr (s.failures.map RepoPath.toJson))),
    ("allowlist_violations", some (.arr (s.allowlistViolations.map RepoPath.toJson)))]
    rfl (by simp) ?_ fun members hget => ?_
  · simp only [List.forall_mem_cons]
    exact ⟨hparser.plain_some, hmode.plain_some, htotal.plain_some, hsuccessful.plain_some,
      hinvalid.plain_some, hfailures.plain_some, hviolations.plain_some, nofun⟩
  · simp only [List.forall_mem_cons] at hget
    obtain ⟨hget0, hget1, hget2, hget3, hget4, hget5, hget6, -⟩ := hget
    simp only [Summary.ofJson?, Fields.of?, Option.bind_eq_bind, Option.bind_some,
      hparser.required hget0, hmode.required hget1, htotal.required hget2,
      hsuccessful.required hget3, hinvalid.required hget4, hfailures.optional hget5,
      hviolations.optional hget6]
    rfl

/-- A report is kept if the data of its findings can be read back and are in order. -/
theorem Report.kept {r : Report}
    (hdata : ∀ f ∈ r.findings, Plain (n + 1) f.data ∧ Ordered f.data) :
    Kept (n + 4) Report.ofJson? Report.toJson r := by
  have hschema : Kept (n + 3) _ _ r.schema := kept_text r.schema
  have htool : Kept (n + 3) _ _ r.tool := r.tool.kept
  have hrun : Kept (n + 3) _ _ r.run := r.run.kept
  have hverdict : Kept (n + 3) _ _ r.verdict := r.verdict.kept
  have hfindings : Kept (n + 3) (list? Finding.ofJson?) (fun l => .arr (l.map Finding.toJson))
      r.findings :=
    kept_list fun f hf => Finding.kept (hdata f hf).1 (hdata f hf).2
  have hsummary : Kept (n + 3) _ _ r.data := r.data.kept
  refine Kept.ofMembers [("schema", some (.str r.schema)), ("tool", some r.tool.toJson),
    ("run", some r.run.toJson), ("verdict", some r.verdict.toJson),
    ("findings", some (.arr (r.findings.map Finding.toJson))), ("data", some r.data.toJson)]
    rfl (by simp) ?_ fun members hget => ?_
  · simp only [List.forall_mem_cons]
    exact ⟨hschema.plain_some, htool.plain_some, hrun.plain_some, hverdict.plain_some,
      hfindings.plain_some, hsummary.plain_some, nofun⟩
  · simp only [List.forall_mem_cons] at hget
    obtain ⟨hget0, hget1, hget2, hget3, hget4, hget5, -⟩ := hget
    simp only [Report.ofJson?, Fields.of?, Option.bind_eq_bind, Option.bind_some,
      hschema.required hget0, htool.required hget1, hrun.required hget2,
      hverdict.required hget3, hfindings.required hget4, hsummary.required hget5]
    rfl

end ParseAudit
