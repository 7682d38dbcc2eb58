import ParseAudit.Proofs.Audit.Tally
import ParseAudit.Proofs.Invocation.Exchange
import ParseAudit.Proofs.Scan.FileWise
import Mathlib.Data.List.Perm.Basic
/-!
# Batch mode and one call for each file

With a parser that prints file by file it does not matter how the files are cut into runs.  Each
way collects the same blocks of records, with the silent files of each run at its end; an evaluation
tells them apart by the order of what it lists at most.

* `collect_printed`, `collect_printed_fails`: what is collected from such a parser;
* `evaluation_agrees`: what comes of the same blocks with the silent files in other places;
* `collect_modes_agree`: both modes fail on the output, or they agree.
-/

namespace ParseAudit.Invocation

open Chars Line Scan ParseAudit.Action

variable {out : RepoPath → List (List Char)} {targets : FileSet} {base : String}
  {respond : Responder} {settings : Settings}

/-! ## What is collected -/

/-- What is read from the output for a run: the blocks of its files, the talking files first. -/
def readOf (out : RepoPath → List (List Char)) (targets : FileSet) (base : String)
    (run : List RepoPath) : ScanOutput where
  records := (talkingFirst out targets base run).flatMap (block out targets base)
  unmatched := run.flatMap fun t => (contribution out targets base t).unmatched

/-- The output for a run can be read exactly when the lines of its files can. -/
theorem scanRun_printed_eq_ok_iff (hout : FileWise out targets base) {run : List RepoPath}
    (hrun : run ∈ runsFor settings targets) {o : ScanOutput} :
    scanRun settings base run (printed out run) = .ok o ↔
      (∀ t ∈ run, Readable out targets base t) ∧ o = readOf out targets base run := by
  rw [scanRun_eq_ok_iff]
  apply batch_printed_eq_ok_iff hout
  · exact fun t ht => mem_of_mem_run hrun ht
  · exact sorted_of_mem_runsFor hrun

/-- The files to check in the order in which their records come. -/
def collectedOrder (out : RepoPath → List (List Char)) (base : String) (settings : Settings)
    (targets : FileSet) : List RepoPath :=
  (runsFor settings targets).flatMap (talkingFirst out targets base)

/-- If all lines can be read, the blocks of all files are collected, and their unmatched lines in
order. -/
theorem collect_printed (hout : FileWise out targets base)
    (hprints : ∀ run ∈ runsFor settings targets, Prints respond settings base (printed out) run)
    (hread : ∀ t ∈ targets, Readable out targets base t) (tree : FileTree) :
    ∃ tree', (collect respond settings targets base).Gives tree
      ⟨(collectedOrder out base settings targets).flatMap (block out targets base),
        targets.toList.flatMap fun t => (contribution out targets base t).unmatched⟩ tree' := by
  have hscan : ∀ run ∈ runsFor settings targets, scanRun settings base run (printed out run) =
      .ok (readOf out targets base run) := by
    intro run hrun
    exact (scanRun_printed_eq_ok_iff hout hrun).2
      ⟨fun t ht => hread t (mem_of_mem_run hrun ht), rfl⟩
  obtain ⟨tree', hgives⟩ := callRuns_gives_of_read hprints hscan 0 tree
  refine ⟨tree', collect_gives_iff.2 ?_⟩
  have hconcat : ScanOutput.concat ((runsFor settings targets).map
      (readOf out targets base)) =
      ⟨(collectedOrder out base settings targets).flatMap (block out targets base),
        targets.toList.flatMap fun t => (contribution out targets base t).unmatched⟩ := by
    unfold ScanOutput.concat collectedOrder
    rw [List.flatMap_map, List.flatMap_map, List.flatMap_assoc, ← flatten_runsFor settings targets,
      List.flatten_eq_flatMap, List.flatMap_assoc]
    rfl
  rw [← hconcat]
  exact hgives

/-- If a line cannot be read, nothing is collected. -/
theorem collect_printed_fails (hout : FileWise out targets base)
    (hprints : ∀ run ∈ runsFor settings targets, Prints respond settings base (printed out) run)
    (hread : ¬∀ t ∈ targets, Readable out targets base t) (tree : FileTree) :
    ∃ e, (collect respond settings targets base).Fails tree e ∧ e.cause.isScan = true := by
  simp only [not_forall] at hread
  obtain ⟨t, ht, hline⟩ := hread
  rw [FileSet.mem_def, ← flatten_runsFor settings targets, List.mem_flatten] at ht
  obtain ⟨run, hrun, ht⟩ := ht
  cases hscan : scanRun settings base run (printed out run) with
  | ok o => exact absurd (((scanRun_printed_eq_ok_iff hout hrun).1 hscan).1 t ht) hline
  | error e =>
    obtain ⟨e', hfails, hcause⟩ := callRuns_fails_of_unread hprints hrun hscan 0 tree
    exact ⟨e', collect_fails_iff.2 hfails, hcause⟩

/-! ## The order of the records -/

theorem talkingFirst_perm (run : List RepoPath) : (talkingFirst out targets base run).Perm run :=
  List.filter_append_perm _ _

/-- The files that the output names keep their order. -/
theorem filter_talkingFirst {p : RepoPath → Bool}
    (hp : ∀ t, p t = true → talks out targets base t = true) (run : List RepoPath) :
    (talkingFirst out targets base run).filter p = run.filter p := by
  unfold talkingFirst
  rw [List.filter_append, List.filter_filter, List.filter_filter]
  have htalking : (run.filter fun t => p t && talks out targets base t) = run.filter p := by
    apply List.filter_congr
    intro t _
    cases h : p t with
    | false => rfl
    | true => rw [hp t h]; rfl
  have hsilent : (run.filter fun t => p t && !talks out targets base t) = [] := by
    rw [List.filter_eq_nil_iff]
    intro t _ h
    rw [Bool.and_eq_true, Bool.not_eq_true'] at h
    rw [hp t h.1] at h
    cases h.2
  rw [htalking, hsilent, List.append_nil]

/-- However the files are cut into runs, every file has its place. -/
theorem collectedOrder_perm : (collectedOrder out base settings targets).Perm targets.toList := by
  unfold collectedOrder
  rw [← flatten_runsFor settings targets, List.flatten_eq_flatMap]
  exact List.Perm.flatMap_left _ fun run _ => talkingFirst_perm run

/-- However the files are cut into runs, those that the output names keep their order. -/
theorem filter_collectedOrder {p : RepoPath → Bool}
    (hp : ∀ t, p t = true → talks out targets base t = true) :
    (collectedOrder out base settings targets).filter p = targets.toList.filter p := by
  unfold collectedOrder
  rw [← flatten_runsFor settings targets, List.filter_flatMap, List.filter_flatten,
    ← List.flatMap_def]
  congr 1
  funext run
  exact filter_talkingFirst hp run

/-! ## Evaluations -/

/-- The group of a silent file does not fail. -/
theorem talks_of_unexpectedFailure (invalid : FileSet) {t : RepoPath}
    (h : (FileGroup.ofBlock t (block out targets base t)).outcome invalid = .unexpectedFailure) :
    talks out targets base t = true := by
  cases htalks : talks out targets base t with
  | true => rfl
  | false =>
    unfold block at h
    rw [htalks, if_neg Bool.false_ne_true] at h
    have hclean : (FileGroup.ofBlock t [Record.clean t]).outcome invalid =
        .ofFacts (invalid.contains t) false := rfl
    rw [hclean] at h
    cases hlisted : invalid.contains t <;> rw [hlisted] at h <;> cases h

/-- The same blocks in another order are evaluated alike, if the files that the output names keep
their order. -/
theorem evaluation_agrees (hout : FileWise out targets base) {order order' : List RepoPath}
    (horder : order.Perm targets.toList) (horder' : order'.Perm targets.toList)
    (hfilter : ∀ p : RepoPath → Bool, (∀ t, p t = true → talks out targets base t = true) →
      order.filter p = order'.filter p) (invalid : FileSet) :
    (Evaluation.ofRecords (order.flatMap (block out targets base)) invalid).Agrees
      (Evaluation.ofRecords (order'.flatMap (block out targets base)) invalid) := by
  have hgroups : ∀ {files : List RepoPath}, files.Perm targets.toList →
      FileGroup.ofRecords (files.flatMap (block out targets base)) =
        files.map fun t => FileGroup.ofBlock t (block out targets base t) := by
    intro files hfiles
    apply FileGroup.ofRecords_flatMap
    · exact hfiles.nodup_iff.2 targets.nodup_toList
    · exact fun t ht => block_spec hout (hfiles.mem_iff.1 ht)
  apply Evaluation.agrees_of_perm
  · rw [hgroups horder, hgroups horder']
    exact (horder.trans horder'.symm).map _
  · rw [hgroups horder, hgroups horder', List.filter_map, List.filter_map]
    congr 1
    apply hfilter
    intro t ht
    exact talks_of_unexpectedFailure invalid (by simpa using ht)

/-! ## Both modes -/

/-- Batch mode and one call for each file agree on a parser that prints file by file, whatever its
name and arguments are: both fail because its output cannot be read, or both collect the same
unmatched lines and records that are evaluated alike. -/
theorem collect_modes_agree (respond : Responder) (settings : Settings) (targets : FileSet)
    (base : String) (out : RepoPath → List (List Char)) (hout : FileWise out targets base)
    (hprints : ∀ run, run ≠ [] → (∀ t ∈ run, t ∈ targets) →
      Prints respond settings base (printed out) run)
    (tree tree' : FileTree) :
    (∃ e e', (collect respond { settings with mode := .batch } targets base).Fails tree e ∧
        e.cause.isScan = true ∧
        (collect respond { settings with mode := .perFile } targets base).Fails tree' e' ∧
        e'.cause.isScan = true) ∨
      ∃ batch perFile last last',
        (collect respond { settings with mode := .batch } targets base).Gives tree batch last ∧
        (collect respond { settings with mode := .perFile } targets base).Gives tree' perFile
          last' ∧
        batch.unmatched = perFile.unmatched ∧
        ∀ invalid, (Evaluation.ofRecords batch.records invalid).Agrees
          (Evaluation.ofRecords perFile.records invalid) := by
  have hprints' : ∀ mode, ∀ run ∈ runsFor { settings with mode := mode } targets,
      Prints respond { settings with mode := mode } base (printed out) run :=
    fun mode run hrun => hprints run (ne_nil_of_mem_runsFor hrun) fun t ht => mem_of_mem_run hrun ht
  by_cases hread : ∀ t ∈ targets, Readable out targets base t
  · obtain ⟨last, hbatch⟩ := collect_printed hout (hprints' .batch) hread tree
    obtain ⟨last', hsingle⟩ := collect_printed hout (hprints' .perFile) hread tree'
    refine .inr ⟨_, _, last, last', hbatch, hsingle, rfl, fun invalid => ?_⟩
    apply evaluation_agrees hout collectedOrder_perm collectedOrder_perm
    intro p hp
    rw [filter_collectedOrder hp, filter_collectedOrder hp]
  · obtain ⟨e, hfails, hcause⟩ := collect_printed_fails hout (hprints' .batch) hread tree
    obtain ⟨e', hfails', hcause'⟩ := collect_printed_fails hout (hprints' .perFile) hread tree'
    exact .inl ⟨e, e', hfails, hcause, hfails', hcause'⟩

/-- A parser that says nothing of `a`, reports two nodes in `b` with a line of its own between them,
and times `c c`.  In batch mode the record of `a` comes last. -/
theorem collect_modes_agree_three :
    let out : RepoPath → List (List Char) := fun t =>
      if t = ⟨"b"⟩ then ["b\t1 ms\t(ERROR [0, 0] - [0, 1])".toList, "1 warning".toList,
        "./b (MISSING x [2, 0] - [2, 0])".toList]
      else if t = ⟨"c c"⟩ then ["c c\t2 ms".toList] else []
    let respond : Responder := fun _ invocation =>
      Action.pure ⟨printed out (invocation.args.map RepoPath.mk), some 1⟩
    let settings : Settings := ⟨⟨⟨[], none, .patterns⟩, ⟨[], none, .patterns⟩⟩, "p", [], .batch, 0⟩
    let targets : FileSet := .ofList [⟨"a"⟩, ⟨"b"⟩, ⟨"c c"⟩]
    ∃ batch perFile last last',
      (collect respond { settings with mode := .batch } targets "").Gives default batch last ∧
      (collect respond { settings with mode := .perFile } targets "").Gives default perFile last' ∧
      batch.records.map Record.file = [⟨"b"⟩, ⟨"b"⟩, ⟨"c c"⟩, ⟨"a"⟩] ∧
      perFile.records.map Record.file = [⟨"a"⟩, ⟨"b"⟩, ⟨"b"⟩, ⟨"c c"⟩] ∧
      batch.unmatched = ["1 warning"] ∧ batch.unmatched = perFile.unmatched ∧
      ∀ invalid, (Evaluation.ofRecords batch.records invalid).Agrees
        (Evaluation.ofRecords perFile.records invalid) := by
  intro out respond settings targets
  have hlines : ∀ t ∈ targets.toList, ∀ line ∈ out t, '\n' ∉ line ∧ Trimmed line ∧
      ∀ cut ∈ cuts line, fileOf "" cut.passed.reverse ∈ targets.toList →
        fileOf "" cut.passed.reverse = t := by decide +kernel
  have hout : FileWise out targets "" := by
    constructor
    · exact fun t ht line hline => (hlines t ht line hline).1
    · intro t ht line hline before after hatt
      obtain ⟨-, htrim, hcuts⟩ := hlines t ht line hline
      rw [htrim.trim_eq] at hatt
      have hnames : ∀ before after, IsCut line before after → fileOf "" before ∈ targets →
          fileOf "" before = t := (forall_isCut_iff htrim).2 hcuts
      exact hnames before after hatt.cut hatt.mem
  have hprints : ∀ run, run ≠ [] → (∀ t ∈ run, t ∈ targets) →
      Prints respond settings "" (printed out) run := by
    intro run _ _ made tree
    refine ⟨some 1, tree, ?_, rfl⟩
    show Except.ok (CallResult.mk (printed out ((run.map RepoPath.text).map RepoPath.mk)) _) = _
    rw [List.map_map]
    exact congrArg (fun files => Except.ok (CallResult.mk (printed out files) (some 1)))
      (List.map_id run)
  have hbatch : ((collect respond { settings with mode := .batch } targets ""
      default).traced.outcome.toOption.map fun o => (o.records.map Record.file, o.unmatched)) =
        some ([⟨"b"⟩, ⟨"b"⟩, ⟨"c c"⟩, ⟨"a"⟩], ["1 warning"]) := by decide +kernel
  have hsingle : ((collect respond { settings with mode := .perFile } targets ""
      default).traced.outcome.toOption.map fun o => (o.records.map Record.file, o.unmatched)) =
        some ([⟨"a"⟩, ⟨"b"⟩, ⟨"b"⟩, ⟨"c c"⟩], ["1 warning"]) := by decide +kernel
  rcases collect_modes_agree respond settings targets "" out hout hprints default default with
    ⟨e, -, hfails, -⟩ | ⟨batch, perFile, last, last', hgives, hgives', hunmatched, hagrees⟩
  · rw [hfails] at hbatch
    cases hbatch
  · rw [hgives.outcome] at hbatch
    rw [hgives'.outcome] at hsingle
    simp only [Except.toOption, Option.map_some, Option.some.injEq, Prod.mk.injEq] at hbatch hsingle
    exact ⟨batch, perFile, last, last', hgives, hgives', hbatch.1, hsingle.1, hbatch.2, hunmatched,
      hagrees⟩

end ParseAudit.Invocation
