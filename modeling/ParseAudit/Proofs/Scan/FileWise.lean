import ParseAudit.Proofs.Invocation.Runs
import ParseAudit.Proofs.Scan.Reading
import ParseAudit.Proofs.Text.Lines
/-!
# Outputs that are printed file by file

A parser that speaks of one file after another, and in the lines for a file of no other file, can
be read in runs of any length: what is read about a file is the same in each of them.

* `FileWise`: such lines;
* `contribution`, `block`: what is read about one file;
* `batch_printed_eq_ok_iff`: when an output can be read, and as what.
-/

namespace ParseAudit.Scan

open Chars Line

/-- The lines that a parser prints for each file.  None of them is more than one line, and those
that belong to a file to check belong to the one they are printed for. -/
structure FileWise (out : RepoPath → List (List Char)) (targets : FileSet) (base : String) :
    Prop where
  no_feed : ∀ t ∈ targets, ∀ line ∈ out t, '\n' ∉ line
  own : ∀ t ∈ targets, ∀ line ∈ out t, ∀ before after,
    Attributed (· ∈ targets) base (trim line) before after → fileOf base before = t

/-- The output for a run of files: their lines in turn, each ended by a line feed. -/
def printed (out : RepoPath → List (List Char)) (run : List RepoPath) : String :=
  String.ofList ((run.flatMap out).flatMap (· ++ ['\n']))

/-- Every line that is printed for a file can be read. -/
def Readable (out : RepoPath → List (List Char)) (targets : FileSet) (base : String)
    (t : RepoPath) : Prop :=
  ∀ line ∈ out t, ∃ o, scanLine targets.contains base line = .ok o

/-- What the lines that are printed for a file contribute. -/
def contribution (out : RepoPath → List (List Char)) (targets : FileSet) (base : String)
    (t : RepoPath) : ScanOutput :=
  .concat ((out t).map (outputOf targets.contains base))

/-- Whether one of the lines that are printed for a file names it. -/
def talks (out : RepoPath → List (List Char)) (targets : FileSet) (base : String)
    (t : RepoPath) : Bool :=
  !(contribution out targets base t).records.isEmpty

/-- The records of one file, the clean one included that no line stands behind. -/
def block (out : RepoPath → List (List Char)) (targets : FileSet) (base : String)
    (t : RepoPath) : List Record :=
  if talks out targets base t then (contribution out targets base t).records else [.clean t]

/-- A run with the files in front that the output names. -/
def talkingFirst (out : RepoPath → List (List Char)) (targets : FileSet) (base : String)
    (run : List RepoPath) : List RepoPath :=
  run.filter (talks out targets base) ++ run.filter fun t => !talks out targets base t

variable {out : RepoPath → List (List Char)} {targets : FileSet} {base : String}

/-! ## One file -/

/-- All records of a file are of that file. -/
theorem file_of_mem_contribution (hout : FileWise out targets base) {t : RepoPath}
    (ht : t ∈ targets) {r : Record} (hr : r ∈ (contribution out targets base t).records) :
    r.file = t := by
  obtain ⟨o, ho, hr⟩ := List.mem_flatMap.1 hr
  obtain ⟨line, hline, rfl⟩ := List.mem_map.1 ho
  unfold outputOf at hr
  cases hscan : scanLine targets.contains base line with
  | error e =>
    rw [hscan] at hr
    cases hr
  | ok o =>
    rw [hscan] at hr
    cases scanLine_eq_ok_iff.1 hscan with
    | blank => cases hr
    | unmatched => cases hr
    | record hatt =>
      rw [List.mem_singleton] at hr
      subst hr
      exact hout.own t ht line hline _ _ ((attributed_congr fun p => FileSet.contains_iff).1 hatt)

theorem block_spec (hout : FileWise out targets base) {t : RepoPath} (ht : t ∈ targets) :
    block out targets base t ≠ [] ∧ ∀ r ∈ block out targets base t, r.file = t := by
  unfold block
  cases h : talks out targets base t with
  | false =>
    rw [if_neg Bool.false_ne_true]
    refine ⟨List.cons_ne_nil _ _, fun r hr => ?_⟩
    rw [List.mem_singleton] at hr
    rw [hr]
    rfl
  | true =>
    rw [if_pos rfl]
    refine ⟨?_, fun r hr => file_of_mem_contribution hout ht hr⟩
    intro hnil
    unfold talks at h
    rw [hnil] at h
    cases h

/-- A run that a file is in reads the lines of that file like all files together do. -/
theorem scanLine_own (hout : FileWise out targets base) {few : RepoPath → Bool}
    (hle : ∀ p, few p = true → p ∈ targets) {t : RepoPath} (ht : few t = true)
    {line : List Char} (hline : line ∈ out t) :
    scanLine few base (withoutReturn line) = scanLine targets.contains base line := by
  rw [← scanLine_trim, trim_withoutReturn, scanLine_trim]
  apply scanLine_congr
  apply attribution_eq_of_le
  · exact fun p hp => FileSet.contains_iff.2 (hle p hp)
  · intro before after hatt
    have hfile := hout.own t (hle t ht) line hline before after
      ((attributed_congr fun p => FileSet.contains_iff).1 hatt)
    rw [hfile]
    exact ht

/-! ## One run -/

/-- The lines of an output, as they are read again. -/
theorem lines_printed (hout : FileWise out targets base) {run : List RepoPath}
    (hrun : ∀ t ∈ run, t ∈ targets) :
    lines (printed out run).toList = (run.flatMap out).map withoutReturn := by
  have hfeed : ∀ line ∈ run.flatMap out, '\n' ∉ line := by
    intro line hline
    obtain ⟨t, ht, hline⟩ := List.mem_flatMap.1 hline
    exact hout.no_feed t (hrun t ht) line hline
  have hlines := lines_flatMap_feed hfeed []
  rw [List.append_nil] at hlines
  unfold printed
  rw [String.toList_ofList, hlines]
  exact List.append_nil _

/-- The lines of a run contribute what its files contribute in turn. -/
theorem concat_outputOf {few : RepoPath → Bool} {run : List RepoPath}
    (hscan : ∀ t ∈ run, ∀ line ∈ out t, scanLine few base (withoutReturn line) =
      scanLine targets.contains base line) :
    ScanOutput.concat (((run.flatMap out).map withoutReturn).map (outputOf few base)) =
      .concat (run.map (contribution out targets base)) := by
  induction run with
  | nil => rfl
  | cons t run ih =>
    have hfirst : ((out t).map withoutReturn).map (outputOf few base) =
        (out t).map (outputOf targets.contains base) := by
      rw [List.map_map]
      apply List.map_congr_left
      intro line hline
      exact outputOf_congr (hscan t List.mem_cons_self line hline)
    rw [List.flatMap_cons, List.map_append, List.map_append, ScanOutput.concat_append, hfirst,
      ih fun k hk => hscan k (List.mem_cons_of_mem t hk)]
    rfl

/-- The output of a run can be read exactly when the lines of its files can, and what is read is
what these contribute in turn. -/
theorem scanOutput_printed_eq_ok_iff (hout : FileWise out targets base) {few : RepoPath → Bool}
    {run : List RepoPath} (hfew : ∀ p, few p = true ↔ p ∈ run) (hrun : ∀ t ∈ run, t ∈ targets)
    {o : ScanOutput} :
    scanOutput few base (printed out run) = .ok o ↔
      (∀ t ∈ run, Readable out targets base t) ∧
        o = .concat (run.map (contribution out targets base)) := by
  have hscan : ∀ t ∈ run, ∀ line ∈ out t, scanLine few base (withoutReturn line) =
      scanLine targets.contains base line := by
    intro t ht line hline
    exact scanLine_own hout (fun p hp => hrun p ((hfew p).1 hp)) ((hfew t).2 ht) hline
  unfold scanOutput
  rw [lines_printed hout hrun, scanLines_eq_ok_iff, concat_outputOf hscan]
  apply and_congr_left
  intro _
  constructor
  · intro h t ht line hline
    rw [← hscan t ht line hline]
    exact h _ (List.mem_map_of_mem (List.mem_flatMap_of_mem ht hline))
  · intro h line hline
    obtain ⟨line, hmem, rfl⟩ := List.mem_map.1 hline
    obtain ⟨t, ht, hmem⟩ := List.mem_flatMap.1 hmem
    rw [hscan t ht line hmem]
    exact h t ht line hmem

/-- Records of the files of a run, the named files first. -/
theorem flatMap_block_talkingFirst (run : List RepoPath) :
    (talkingFirst out targets base run).flatMap (block out targets base) =
      run.flatMap (fun t => (contribution out targets base t).records) ++
        (run.filter fun t => !talks out targets base t).map .clean := by
  unfold talkingFirst
  rw [List.flatMap_append]
  congr 1
  · induction run with
    | nil => rfl
    | cons t run ih =>
      rw [List.flatMap_cons, ← ih, List.filter_cons]
      cases h : talks out targets base t with
      | true =>
        rw [if_pos rfl, List.flatMap_cons]
        congr 1
        unfold block
        rw [h, if_pos rfl]
      | false =>
        rw [if_neg Bool.false_ne_true]
        have hnil : (contribution out targets base t).records = [] := by
          unfold talks at h
          simpa using h
        rw [hnil]
        rfl
  · induction run with
    | nil => rfl
    | cons t run ih =>
      rw [List.filter_cons]
      cases h : talks out targets base t with
      | true => exact ih
      | false =>
        rw [Bool.not_false, if_pos rfl, List.flatMap_cons, List.map_cons, ih]
        unfold block
        rw [h]
        rfl

/-- A file of a run has a record exactly when one of its lines names it. -/
theorem mem_file_contributions (hout : FileWise out targets base) {run : List RepoPath}
    (hrun : ∀ t ∈ run, t ∈ targets) {t : RepoPath} (ht : t ∈ run) :
    t ∈ (ScanOutput.concat (run.map (contribution out targets base))).records.map Record.file ↔
      talks out targets base t = true := by
  unfold talks ScanOutput.concat
  rw [List.flatMap_map, List.mem_map, Bool.not_eq_true', List.isEmpty_eq_false_iff_exists_mem]
  constructor
  · rintro ⟨r, hr, hfile⟩
    obtain ⟨t', ht', hr⟩ := List.mem_flatMap.1 hr
    have hsame : t' = t := (file_of_mem_contribution hout (hrun t' ht') hr).symm.trans hfile
    exact ⟨r, hsame ▸ hr⟩
  · rintro ⟨r, hr⟩
    exact ⟨r, List.mem_flatMap_of_mem ht hr, file_of_mem_contribution hout (hrun t ht) hr⟩

/-- The output of a run is read exactly when the lines of its files can be, and the files that
it names come first. -/
theorem batch_printed_eq_ok_iff (hout : FileWise out targets base) {run : List RepoPath}
    (hrun : ∀ t ∈ run, t ∈ targets) (hsorted : run.Pairwise (· < ·)) {o : ScanOutput} :
    batch (printed out run) (.ofList run) base = .ok o ↔
      (∀ t ∈ run, Readable out targets base t) ∧
        o = ⟨(talkingFirst out targets base run).flatMap (block out targets base),
          run.flatMap fun t => (contribution out targets base t).unmatched⟩ := by
  have hscan := @scanOutput_printed_eq_ok_iff out targets base hout (FileSet.ofList run).contains
    run (fun p => FileSet.contains_iff.trans FileSet.mem_ofList) hrun
  cases h : scanOutput (FileSet.ofList run).contains base (printed out run) with
  | error e =>
    rw [batch_eq_error h]
    rw [h] at hscan
    constructor
    · intro herror
      cases herror
    · rintro ⟨hread, -⟩
      cases hscan.2 ⟨hread, rfl⟩
  | ok scanned =>
    obtain ⟨hread, rfl⟩ := hscan.1 h
    rw [batch_eq_ok h, FileSet.ofList_eq_self hsorted]
    have hsilent : (run.filter fun t => !((ScanOutput.concat (run.map
        (contribution out targets base))).records.map Record.file).contains t) =
        run.filter fun t => !talks out targets base t := by
      apply List.filter_congr
      intro t ht
      rw [List.contains_eq_mem, Bool.eq_iff_iff, Bool.not_eq_true', Bool.not_eq_true',
        ← Bool.not_eq_true, ← Bool.not_eq_true, decide_eq_true_iff,
        mem_file_contributions hout hrun ht]
    rw [hsilent, flatMap_block_talkingFirst]
    unfold ScanOutput.concat
    rw [List.flatMap_map, List.flatMap_map]
    constructor
    · intro heq
      cases heq
      exact ⟨hread, rfl⟩
    · rintro ⟨-, rfl⟩
      rfl

end ParseAudit.Scan
