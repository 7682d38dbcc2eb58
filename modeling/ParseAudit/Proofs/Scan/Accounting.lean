import ParseAudit.Proofs.FileSet
import ParseAudit.Proofs.Scan.Reading
import Mathlib.Data.List.Forall2
/-!
# Every line is accounted for

What a run over some files is read as can be said without the loop over its lines: what each line
contributes, one after another, and then a clean record for each file that no line belongs to.

* `forall₂_contributes_iff`: what some lines contribute, taken together;
* `batch_accounts`: a run is read as exactly that, and a run over one file is no special case;
* `name_ending_in_blank_unmatched`: no line belongs to a file whose name ends in a blank.
-/

namespace ParseAudit.Scan

open Chars Line

/-! ## What lines contribute -/

/-- The line belongs to the file: the longest of its cuts that names one of the files names it. -/
def BelongsTo (files : RepoPath → Prop) (base : String) (line : List Char) (t : RepoPath) : Prop :=
  ∃ before after, Attributed files base (trim line) before after ∧ fileOf base before = t

theorem contains_eq_mem (s : FileSet) : (fun p => s.contains p = true) = (· ∈ s) := by
  funext p
  exact propext FileSet.contains_iff

/-- Lines that each contribute something can all be read, and in one way only. -/
theorem forall₂_contributes_iff {targets : FileSet} {base : String} {lines : List (List Char)}
    {parts : List ScanOutput} :
    List.Forall₂ (Contributes (· ∈ targets) base) lines parts ↔
      (∀ line ∈ lines, ∃ out, scanLine targets.contains base line = .ok out) ∧
        parts = lines.map (outputOf targets.contains base) := by
  have hline : ∀ {line : List Char} {out : ScanOutput},
      Contributes (· ∈ targets) base line out ↔ scanLine targets.contains base line = .ok out := by
    intro line out
    rw [scanLine_eq_ok_iff, contains_eq_mem]
  constructor
  · intro h
    induction h with
    | nil => simp
    | @cons line out lines parts hfirst hrest ih =>
      obtain ⟨hall, rfl⟩ := ih
      have hread := hline.1 hfirst
      refine ⟨List.forall_mem_cons.2 ⟨⟨out, hread⟩, hall⟩, ?_⟩
      rw [List.map_cons, outputOf_eq hread]
  · rintro ⟨hall, rfl⟩
    rw [List.forall₂_map_right_iff, List.forall₂_same]
    intro line hmem
    obtain ⟨out, hread⟩ := hall line hmem
    rw [outputOf_eq hread]
    exact hline.2 hread

/-- The files of the records that lines stand behind are the files that some line belongs to. -/
theorem mem_files_scanOutput {targets : FileSet} {base stdout : String} {out : ScanOutput}
    (h : scanOutput targets.contains base stdout = .ok out) {t : RepoPath} :
    t ∈ out.records.map Record.file ↔
      ∃ line ∈ lines stdout.toList, BelongsTo (· ∈ targets) base line t := by
  rw [List.mem_map]
  constructor
  · rintro ⟨r, hr, rfl⟩
    obtain ⟨line, hline, before, after, hatt, hfile, -⟩ := (mem_records_scanLines h).1 hr
    rw [contains_eq_mem] at hatt
    exact ⟨line, hline, before, after, hatt, hfile.symm⟩
  · rintro ⟨line, hline, before, after, hatt, rfl⟩
    rw [← contains_eq_mem] at hatt
    obtain ⟨part, hpart⟩ := (scanLines_eq_ok_iff.1 h).1 line hline
    obtain ⟨region, hsaid, -⟩ := (scanLine_eq_ok_iff.1 hpart).of_attributed hatt
    have hr : (⟨fileOf base before, region, String.ofList (trim line)⟩ : Record) ∈ out.records :=
      (mem_records_scanLines h).2 ⟨line, hline, before, after, hatt, rfl, hsaid, rfl⟩
    exact ⟨_, hr, rfl⟩

/-! ## Whole outputs -/

/-- What is read from the lines of a run over some files: what the lines contribute, in their order,
and then a clean record for each file that no line belongs to, in the order of the files. -/
inductive Accounts (targets : FileSet) (base : String) (lines : List (List Char)) :
    ScanOutput → Prop where
  | intro {parts : List ScanOutput} {silent : FileSet}
      (each : List.Forall₂ (Contributes (· ∈ targets) base) lines parts)
      (mem_silent : ∀ t, t ∈ silent ↔
        t ∈ targets ∧ ∀ line ∈ lines, ¬BelongsTo (· ∈ targets) base line t) :
      Accounts targets base lines ⟨parts.flatMap ScanOutput.records ++ silent.toList.map .clean,
        parts.flatMap ScanOutput.unmatched⟩

/-- The files that no record stands for are those that no line belongs to. -/
theorem mem_silent_iff {targets : FileSet} {base stdout : String} {out : ScanOutput}
    (h : scanOutput targets.contains base stdout = .ok out) {t : RepoPath} :
    t ∈ targets.filter (fun t => !(out.records.map Record.file).contains t) ↔
      t ∈ targets ∧ ∀ line ∈ lines stdout.toList, ¬BelongsTo (· ∈ targets) base line t := by
  rw [FileSet.mem_filter, Bool.not_eq_true', ← Bool.not_eq_true, List.contains_iff_mem,
    mem_files_scanOutput h]
  simp only [not_exists, not_and]

/-- An output is read exactly when each line contributes something, and then all of it is. -/
theorem batch_eq_ok_iff_accounts {stdout base : String} {targets : FileSet} {out : ScanOutput} :
    batch stdout targets base = .ok out ↔ Accounts targets base (lines stdout.toList) out := by
  constructor
  · intro h
    cases hscan : scanOutput targets.contains base stdout with
    | error e =>
      rw [batch_eq_error hscan] at h
      cases h
    | ok scanned =>
      rw [batch_eq_ok hscan] at h
      cases h
      obtain ⟨hall, hconcat⟩ := scanLines_eq_ok_iff.1 hscan
      have haccounts := Accounts.intro (forall₂_contributes_iff.2 ⟨hall, rfl⟩)
        (fun t => mem_silent_iff hscan)
      rw [hconcat] at haccounts ⊢
      exact haccounts
  · rintro ⟨each, hsilent⟩
    obtain ⟨hall, rfl⟩ := forall₂_contributes_iff.1 each
    have hscan : scanOutput targets.contains base stdout = .ok _ := scanLines_eq_ok hall 1
    have hlist := FileSet.toList_eq_iff.2 fun t => (hsilent t).trans (mem_silent_iff hscan).symm
    rw [batch_eq_ok hscan, hlist]
    rfl

/-- The scanner loses nothing and invents nothing.  A run over some files is read as exactly what
its lines contribute and a clean record for each file that no line belongs to; so its records are of
the files of the run, with one record at least for each of them.  A run over a single file is read
in the same way, whether it can be read or not. -/
theorem batch_accounts (stdout base : String) :
    (∀ targets out, batch stdout targets base = .ok out ↔
      Accounts targets base (lines stdout.toList) out) ∧
    (∀ targets out, batch stdout targets base = .ok out →
      (∀ r ∈ out.records, r.file ∈ targets) ∧ ∀ t ∈ targets, ∃ r ∈ out.records, r.file = t) ∧
    ∀ file, single stdout file base = batch stdout (.ofList [file]) base := by
  refine ⟨fun targets out => batch_eq_ok_iff_accounts, ?_,
    fun file => single_eq_batch stdout file base⟩
  intro targets out hok
  have hfiles : ∀ t, (∃ r ∈ out.records, r.file = t) ↔ t ∈ targets :=
    fun t => mem_files_batch hok
  exact ⟨fun r hr => (hfiles r.file).1 ⟨r, hr, rfl⟩, fun t ht => (hfiles t).2 ht⟩

/-- A run over three files, where the name of one is the start of another one's: a line for each of
these two, a line that belongs to no file, a blank one, and no line for the third file. -/
theorem batch_accounts_overlapping :
    let stdout := "a b.c\t1 ms\t(ERROR [0, 0] - [0, 1])\n\nTotal: 2 (x)\n/w/a  2 ms\n"
    let targets : FileSet := .ofList [⟨"a"⟩, ⟨"a b.c"⟩, ⟨"d"⟩]
    let out : ScanOutput := ⟨[⟨⟨"a b.c"⟩, some ⟨1, 1, 1, 2, "ERROR"⟩,
      "a b.c\t1 ms\t(ERROR [0, 0] - [0, 1])"⟩, ⟨⟨"a"⟩, none, "/w/a  2 ms"⟩, .clean ⟨"d"⟩],
      ["Total: 2 (x)"]⟩
    batch stdout targets "/w" = .ok out ∧ Accounts targets "/w" (lines stdout.toList) out ∧
      (∀ r ∈ out.records, r.file ∈ targets) ∧ ∀ t ∈ targets, ∃ r ∈ out.records, r.file = t := by
  intro stdout targets out
  have hok : batch stdout targets "/w" = .ok out := by decide +kernel
  exact ⟨hok, ((batch_accounts stdout "/w").1 targets out).1 hok,
    (batch_accounts stdout "/w").2.1 targets out hok⟩

/-- The path in front of a cut loses the blanks at its end before it is looked up.  So a file whose
name ends in a blank is not found, even where the line has that very name in front of a gap: the
error is kept as an unmatched line, and the file is taken for a clean one. -/
theorem name_ending_in_blank_unmatched :
    let file : RepoPath := ⟨"a "⟩
    let line := "a  (ERROR [0, 0] - [0, 1])"
    IsCut (trim line.toList) "a ".toList " (ERROR [0, 0] - [0, 1])".toList ∧
      RepoPath.normalize (String.ofList "a ".toList) "/w" = file ∧
      ∃ out, batch line (.ofList [file]) "/w" = .ok out ∧ out.unmatched = [line] ∧
        out.records = [.clean file] ∧ ∀ r ∈ out.records, r.raw ≠ line := by
  intro file line
  have hcut : IsCut (trim line.toList) "a ".toList " (ERROR [0, 0] - [0, 1])".toList := by
    refine ⟨by decide +kernel, by decide, ?_⟩
    rintro c ⟨⟩
    rfl
  have hok : batch line (.ofList [file]) "/w" = .ok ⟨[.clean file], [line]⟩ := by decide +kernel
  exact ⟨hcut, by decide +kernel, _, hok, rfl, rfl, by decide⟩

end ParseAudit.Scan
