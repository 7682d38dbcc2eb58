import ParseAudit.Proofs.FileSet
import ParseAudit.Proofs.RepoPath.Canonical
import ParseAudit.Proofs.Scan.Reading
/-!
# Files without blanks in their names

Where neither the base directory nor a file has a blank in its name, a line can only belong to the
file that its first token names: a longer start of the line holds a blank, and a blank does not
vanish when a path is normalized.  So an output is read line by line, as if each line stood alone.

* `eq_firstToken`: a cut whose path has no blank ends with the first token;
* `scanLine_eq_recordFrom`: a line of an output is read as the line alone;
* `LineByLine`: what lines are read as one by one, up to the first that cannot be read;
* `batch_eq_iff_lineByLine`: what an output is read as is just that.
-/

namespace ParseAudit

namespace Chars

/-- A text without a blank. -/
def BlankFree (s : List Char) : Prop := ∀ c ∈ s, isBlank c = false

instance (s : List Char) : Decidable (BlankFree s) :=
  List.decidableBAll (fun c => isBlank c = false) s

theorem trimEnd_of_blankFree {s : List Char} (h : BlankFree s) : trimEnd s = s :=
  trimEnd_eq_self fun c hc => h c (List.mem_of_getLast? hc)

end Chars

namespace Line

open Chars

theorem isGap_of_blankFree {s : List Char} (h : BlankFree s) : ∀ c ∈ s, isGap c = false := by
  intro c hc
  by_contra hgap
  have hblank := isBlank_of_isGap (by simpa using hgap)
  rw [h c hc] at hblank
  cases hblank

/-- A cut whose path has no blank ends with the first token, if that has no blank either. -/
theorem eq_firstToken {text before after : List Char} (hcut : IsCut text before after)
    (htoken : BlankFree (text.takeWhile (!isGap ·))) (hpath : BlankFree (trimEnd before)) :
    trimEnd before = text.takeWhile (!isGap ·) ∧
      trim after = trim (text.dropWhile (!isGap ·)) := by
  obtain ⟨blanks, hblanks, hbefore⟩ := exists_trimEnd before
  have htext : text = trimEnd before ++ (blanks ++ after) := by
    rw [← hcut.append, ← List.append_assoc, ← hbefore]
  have hgap : ∀ c ∈ (blanks ++ after).head?, isGap c = true := by
    cases blanks with
    | nil => exact hcut.gap
    | cons c cs =>
      -- A blank that is no gap would be part of the first token.
      rintro d ⟨⟩
      by_contra hno
      have hno : isGap c = false := by simpa using hno
      have hmem : c ∈ text.takeWhile (!isGap ·) := by
        have hall : ∀ d ∈ trimEnd before, (!isGap d) = true :=
          fun d hd => by rw [isGap_of_blankFree hpath d hd]; rfl
        rw [htext, List.takeWhile_append_of_pos hall]
        simp [hno]
      have hblank := htoken c hmem
      rw [hblanks c List.mem_cons_self] at hblank
      cases hblank
  obtain ⟨htake, hdrop⟩ := firstToken_append (isGap_of_blankFree hpath) hgap
  rw [htext, htake, hdrop]
  exact ⟨rfl, (trim_blank_append hblanks).symm⟩

end Line

namespace Scan

open Chars Line

section

variable {targets : FileSet} {base : String} {line : List Char}

/-- A name that is normalized to one without blanks has none itself. -/
theorem blankFree_of_fileOf (hbase : BlankFree base.toList)
    (htargets : ∀ t ∈ targets, BlankFree t.text.toList) {name : List Char}
    (h : RepoPath.normalize (String.ofList name) base ∈ targets) : BlankFree name := by
  intro c hc
  by_contra hblank
  have hblank : isBlank c = true := by simpa using hblank
  have hin : c ∉ base.toList := by
    intro hin
    rw [hbase c hin] at hblank
    cases hblank
  have hname : c ∈ (String.ofList name).toList := by rwa [String.toList_ofList]
  have hkept := RepoPath.mem_normalize_of_isBlank hblank hin hname
  rw [htargets _ h c hkept] at hblank
  cases hblank

/-- A line is read as the line alone, if it is not blank. -/
def ReadAlone (isTarget : RepoPath → Bool) (base : String) (line : List Char) : Prop :=
  trim line ≠ [] →
    scanLine isTarget base line = (recordFrom line base).map fun r => ⟨[r], []⟩

/-- A line whose first token names a file is read as the line alone. -/
theorem scanLine_eq_recordFrom (hbase : BlankFree base.toList)
    (htargets : ∀ t ∈ targets, BlankFree t.text.toList)
    (hname : trim line ≠ [] →
      RepoPath.normalize (String.ofList (splitToken line).1) base ∈ targets) :
    ReadAlone targets.contains base line := by
  intro hne
  have htoken : BlankFree ((trim line).takeWhile (!isGap ·)) :=
    blankFree_of_fileOf hbase htargets (hname hne)
  have hfile : targets.contains (fileOf base ((trim line).takeWhile (!isGap ·))) = true := by
    unfold fileOf
    rw [trimEnd_of_blankFree htoken]
    exact FileSet.contains_iff.2 (hname hne)
  obtain ⟨before, after, hatt⟩ :=
    exists_attributed (isCut_firstToken (trimmed_trim line) hne) hfile
  have hpath : BlankFree (trimEnd before) :=
    blankFree_of_fileOf hbase htargets (FileSet.contains_iff.1 hatt.mem)
  obtain ⟨hbefore, hafter⟩ := eq_firstToken hatt.cut htoken hpath
  rw [scanLine_of_attributed hatt, recordFrom_of_ne_nil base hne, hbefore, hafter]

end

/-! ## Lines that are read alone -/

/-- What the lines of an output are read as one by one. -/
inductive LineByLine (targets : FileSet) (base : String) (lines : List (List Char)) :
    Except ScanError ScanOutput → Prop where
  /-- The records of the lines that are not blank, and then a clean record for each file that none
  of them is about. -/
  | reads {records : List Record}
      (each : List.Forall₂ (fun line r => recordFrom line base = .ok r)
        (lines.filter (trim · ≠ [])) records) :
      LineByLine targets base lines
        (.ok ⟨records ++
          (targets.toList.filter fun t => t ∉ records.map Record.file).map .clean, []⟩)
  /-- The first line that cannot be read, with what is wrong with it. -/
  | fails {earlier later : List (List Char)} {line : List Char} {cause : LineError}
      (hlines : lines = earlier ++ line :: later)
      (hearlier : ∀ l ∈ earlier, trim l ≠ [] → ∃ r, recordFrom l base = .ok r)
      (hne : trim line ≠ []) (hcause : recordFrom line base = .error cause) :
      LineByLine targets base lines
        (.error ⟨earlier.length + 1, String.ofList (trim line), cause⟩)

section

variable {isTarget : RepoPath → Bool} {base : String}

theorem ReadAlone.exists_ok_iff {line : List Char} (h : ReadAlone isTarget base line) :
    (∃ out, scanLine isTarget base line = .ok out) ↔
      (trim line ≠ [] → ∃ r, recordFrom line base = .ok r) := by
  by_cases hblank : trim line = []
  · exact iff_of_true ⟨_, scanLine_of_trim_eq_nil hblank⟩ fun hne => absurd hblank hne
  · rw [h hblank]
    cases recordFrom line base with
    | error e => exact iff_of_false nofun fun hread => nomatch hread hblank
    | ok r => exact iff_of_true ⟨_, rfl⟩ fun _ => ⟨r, rfl⟩

theorem ReadAlone.eq_error_iff {line : List Char} {cause : LineError}
    (h : ReadAlone isTarget base line) :
    scanLine isTarget base line = .error cause ↔
      trim line ≠ [] ∧ recordFrom line base = .error cause := by
  by_cases hblank : trim line = []
  · rw [scanLine_of_trim_eq_nil hblank]
    exact iff_of_false nofun fun hread => hread.1 hblank
  · rw [h hblank]
    cases recordFrom line base with
    | error e => simp [Except.map, hblank]
    | ok r => exact iff_of_false nofun fun hread => nomatch hread.2

/-- Lines that are read alone contribute their records. -/
theorem scanLines_eq_ok_records_iff {lines : List (List Char)} {number : Nat} {out : ScanOutput}
    (h : ∀ line ∈ lines, ReadAlone isTarget base line) :
    scanLines isTarget base number lines = .ok out ↔
      ∃ records, List.Forall₂ (fun line r => recordFrom line base = .ok r)
        (lines.filter (trim · ≠ [])) records ∧ out = ⟨records, []⟩ := by
  induction lines generalizing number out with
  | nil =>
    constructor
    · rintro ⟨⟩
      exact ⟨[], .nil, rfl⟩
    · rintro ⟨records, ⟨⟩, rfl⟩
      rfl
  | cons line lines ih =>
    obtain ⟨hline, hlines⟩ := List.forall_mem_cons.1 h
    rw [scanLines_cons_eq_ok_iff]
    simp only [ih hlines]
    by_cases hblank : trim line = []
    · rw [List.filter_cons_of_neg (by simp [hblank]), scanLine_of_trim_eq_nil hblank]
      constructor
      · rintro ⟨_, _, ⟨⟩, ⟨records, each, rfl⟩, rfl⟩
        exact ⟨records, each, rfl⟩
      · rintro ⟨records, each, rfl⟩
        exact ⟨.nil, ⟨records, []⟩, rfl, ⟨records, each, rfl⟩, rfl⟩
    · rw [List.filter_cons_of_pos (by simp [hblank]), hline hblank]
      constructor
      · rintro ⟨first, _, hfirst, ⟨records, each, rfl⟩, rfl⟩
        cases hrecord : recordFrom line base with
        | error e => rw [hrecord] at hfirst; cases hfirst
        | ok r =>
          rw [hrecord] at hfirst
          cases hfirst
          exact ⟨r :: records, .cons hrecord each, rfl⟩
      · rintro ⟨_, hrecords, rfl⟩
        cases hrecords with
        | @cons _ r _ records hrecord each =>
          rw [hrecord]
          exact ⟨⟨[r], []⟩, ⟨records, []⟩, rfl, ⟨records, each, rfl⟩, rfl⟩

end

/-- Where neither the base directory nor a file has a blank in its name and the first token of every
line names a file, an output is read line by line: its records are those of its lines, each read
alone, and a clean record for each file that none of them is about; and it fails where the first
line does that cannot be read alone. -/
theorem batch_eq_iff_lineByLine (stdout base : String) (targets : FileSet)
    (hbase : BlankFree base.toList) (htargets : ∀ t ∈ targets, BlankFree t.text.toList)
    (hnames : ∀ line ∈ lines stdout.toList, trim line ≠ [] →
      RepoPath.normalize (String.ofList (splitToken line).1) base ∈ targets)
    (result : Except ScanError ScanOutput) :
    batch stdout targets base = result ↔
      LineByLine targets base (lines stdout.toList) result := by
  have halone : ∀ line ∈ lines stdout.toList, ReadAlone targets.contains base line :=
    fun line hline => scanLine_eq_recordFrom hbase htargets (hnames line hline)
  cases result with
  | ok all =>
    constructor
    · intro h
      obtain ⟨out, hscan, rfl⟩ := batch_eq_ok_iff.1 h
      obtain ⟨records, each, rfl⟩ := (scanLines_eq_ok_records_iff halone).1 hscan
      exact .reads each
    · rintro ⟨each⟩
      exact batch_eq_ok_iff.2 ⟨_, (scanLines_eq_ok_records_iff halone).2 ⟨_, each, rfl⟩, rfl⟩
  | error e =>
    rw [batch_eq_error_iff]
    unfold scanOutput
    rw [scanLines_eq_error_iff]
    constructor
    · rintro ⟨earlier, line, later, cause, hlines, hearlier, hline, rfl⟩
      rw [hlines] at halone
      obtain ⟨hne, hcause⟩ := (halone line (by simp)).eq_error_iff.1 hline
      rw [Nat.add_comm]
      refine .fails hlines (fun l hl => ?_) hne hcause
      exact (halone l (List.mem_append_left _ hl)).exists_ok_iff.1 (hearlier l hl)
    · intro h
      cases h with
      | @fails earlier later line cause hlines hearlier hne hcause =>
        rw [hlines] at halone
        refine ⟨earlier, line, later, cause, hlines, fun l hl => ?_, ?_, ?_⟩
        · exact (halone l (List.mem_append_left _ hl)).exists_ok_iff.2 (hearlier l hl)
        · exact (halone line (by simp)).eq_error_iff.2 ⟨hne, hcause⟩
        · rw [Nat.add_comm]

/-- Names spelled in several ways, a blank line and a silent file; and the same lines with two more,
of which the last has a point without a comma: the failure is on the fifth line. -/
theorem batch_eq_iff_lineByLine_commaless :
    let targets : FileSet := .ofList [⟨"a.js"⟩, ⟨"b.js"⟩, ⟨"c.js"⟩]
    let readable := "./b.js\t1 ms\r\n \r\n /w/a.js (ERROR [0, 0] - [0, 1])\n"
    let unreadable := readable ++ "W\\..\\b.js\n\\w\\b.js  (ERROR [0 0] - [0, 1]) \n"
    LineByLine targets "/w" (lines readable.toList) (.ok ⟨[⟨⟨"b.js"⟩, none, "./b.js\t1 ms"⟩,
        ⟨⟨"a.js"⟩, some ⟨1, 1, 1, 2, "ERROR"⟩, "/w/a.js (ERROR [0, 0] - [0, 1])"⟩,
        .clean ⟨"c.js"⟩], []⟩) ∧
      LineByLine (.ofList [⟨"a.js"⟩, ⟨"b.js"⟩, ⟨"W/../b.js"⟩]) "/w" (lines unreadable.toList)
        (.error ⟨5, "\\w\\b.js  (ERROR [0 0] - [0, 1])", .malformedPoint "[0 0]"⟩) := by
  intro targets readable unreadable
  let others : FileSet := .ofList [⟨"a.js"⟩, ⟨"b.js"⟩, ⟨"W/../b.js"⟩]
  have hbase : BlankFree "/w".toList := by decide
  have htargets : ∀ t ∈ targets.toList, BlankFree t.text.toList := by decide +kernel
  have hothers : ∀ t ∈ others.toList, BlankFree t.text.toList := by decide +kernel
  have hreadable : ∀ line ∈ lines readable.toList, trim line ≠ [] →
      RepoPath.normalize (String.ofList (splitToken line).1) "/w" ∈ targets := by decide +kernel
  have hunreadable : ∀ line ∈ lines unreadable.toList, trim line ≠ [] →
      RepoPath.normalize (String.ofList (splitToken line).1) "/w" ∈ others := by decide +kernel
  constructor
  · apply (batch_eq_iff_lineByLine readable "/w" targets hbase htargets hreadable _).1
    decide +kernel
  · apply (batch_eq_iff_lineByLine unreadable "/w" others hbase hothers hunreadable _).1
    decide +kernel

end Scan

end ParseAudit
