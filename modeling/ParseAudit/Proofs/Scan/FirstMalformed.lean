import ParseAudit.Proofs.Scan.Malformed
import ParseAudit.Proofs.Text.Lines
/-!
# The first malformed line

An output that cannot be read fails with the first of its malformed lines: with the number of that
line among all lines, with its trimmed text, and with what is wrong with the error node behind its
file.  Lines that name no file do no harm, and what follows a finished line cannot mend it.

* `scanLine_eq_error_iff`: what is wrong with a line;
* `FirstMalformed`: the first malformed line of an output, as the error to report;
* `scanOutput_eq_error_iff`, `scanOutput_append`: an output fails with that line, whatever follows;
* `scan_fails_at_first`: so does a run over several files, and a run over one.
-/

namespace ParseAudit.Scan

open Chars Line

/-- The first malformed line among some lines, and what is wrong with the rest behind the file that
it belongs to. -/
inductive FirstMalformed (files : RepoPath → Prop) (base : String) (lines : List (List Char)) :
    ScanError → Prop where
  | intro {earlier later : List (List Char)} {line before after : List Char} {cause : LineError}
      (hlines : lines = earlier ++ line :: later)
      (hearlier : ∀ l ∈ earlier, ¬Malformed files base l)
      (hmalformed : Malformed files base line)
      (hatt : Attributed files base (trim line) before after)
      (hcause : errorNode (trim after) = .error cause) (hne : cause ≠ .empty) :
      FirstMalformed files base lines ⟨earlier.length + 1, String.ofList (trim line), cause⟩

/-- A way to read outputs that fails with the first malformed line and with nothing else. -/
structure FailsAtFirst (read : String → Except ScanError ScanOutput) (files : RepoPath → Prop)
    (base : String) : Prop where
  fails_iff : ∀ stdout, (∃ e, read stdout = .error e) ↔
    ∃ line ∈ lines stdout.toList, trim line ≠ [] ∧ Malformed files base line
  error_iff : ∀ stdout e, read stdout = .error e ↔
    FirstMalformed files base (lines stdout.toList) e
  /-- A failure in finished lines is there whatever follows them. -/
  final : ∀ stdout more e, stdout.toList.getLast? = some '\n' → read stdout = .error e →
    read (stdout ++ more) = .error e

/-! ## One line -/

/-- A line that belongs to a file is not blank. -/
theorem Malformed.trim_ne_nil {files : RepoPath → Prop} {base : String} {line : List Char}
    (h : Malformed files base line) : trim line ≠ [] := by
  obtain ⟨before, after, hatt, -⟩ := h
  exact hatt.cut.text_ne_nil

variable {isTarget : RepoPath → Bool} {base : String}

/-- What is wrong with a malformed line is what is wrong with its error node. -/
theorem scanLine_eq_error_iff {line : List Char} {cause : LineError} :
    scanLine isTarget base line = .error cause ↔
      Malformed (isTarget · = true) base line ∧ ∃ before after,
        Attributed (isTarget · = true) base (trim line) before after ∧
          errorNode (trim after) = .error cause := by
  have hline : ∀ {before after}, Attributed (isTarget · = true) base (trim line) before after →
      (scanLine isTarget base line = .error cause ↔
        (trim after).getLast? = some ')' ∧ errorNode (trim after) = .error cause) := by
    intro before after hatt
    have hparts : recordOfParts (trimEnd before) (trim after) (trim line) base = .error cause ↔ _ :=
      recordOfParts_eq_error_iff (trimEnd_ne_nil_of_cut hatt.cut)
    rw [scanLine_of_attributed hatt, ← regionOf_eq_error_iff, ← hparts]
    cases recordOfParts (trimEnd before) (trim after) (trim line) base with
    | error e => simp [Except.map]
    | ok r => exact iff_of_false nofun nofun
  constructor
  · intro h
    have hmalformed := scanLine_error_iff.1 ⟨cause, h⟩
    obtain ⟨before, after, hatt, -⟩ := id hmalformed
    exact ⟨hmalformed, before, after, hatt, ((hline hatt).1 h).2⟩
  · rintro ⟨⟨before, after, hatt, hlast, -⟩, before', after', hatt', hcause⟩
    obtain ⟨rfl, rfl⟩ := hatt.unique hatt'
    exact (hline hatt).2 ⟨hlast, hcause⟩

/-- A line that is not malformed can be read. -/
theorem exists_scanLine_eq_ok_iff {line : List Char} :
    (∃ out, scanLine isTarget base line = .ok out) ↔ ¬Malformed (isTarget · = true) base line := by
  rw [← scanLine_error_iff]
  cases scanLine isTarget base line with
  | error e => exact iff_of_false nofun fun h => h ⟨e, rfl⟩
  | ok out => exact iff_of_true ⟨out, rfl⟩ nofun

/-! ## Whole outputs -/

/-- An output fails with its first malformed line. -/
theorem scanOutput_eq_error_iff {stdout : String} {e : ScanError} :
    scanOutput isTarget base stdout = .error e ↔
      FirstMalformed (isTarget · = true) base (lines stdout.toList) e := by
  unfold scanOutput
  rw [scanLines_eq_error_iff]
  simp only [exists_scanLine_eq_ok_iff, scanLine_eq_error_iff]
  constructor
  · rintro ⟨earlier, line, later, cause, hlines, hearlier, ⟨hline, before, after, hatt, hcause⟩,
      rfl⟩
    have hne : cause ≠ .empty := fun heq => errorNode_ne_empty _ (heq ▸ hcause)
    rw [Nat.add_comm]
    exact .intro hlines hearlier hline hatt hcause hne
  · rintro ⟨hlines, hearlier, hline, hatt, hcause, -⟩
    refine ⟨_, _, _, _, hlines, hearlier, ⟨hline, _, _, hatt, hcause⟩, ?_⟩
    rw [Nat.add_comm]

theorem FirstMalformed.append {files : RepoPath → Prop} {lines : List (List Char)} {e : ScanError}
    (h : FirstMalformed files base lines e) (more : List (List Char)) :
    FirstMalformed files base (lines ++ more) e := by
  cases h with
  | @intro earlier later line before after cause hlines hearlier hline hatt hcause hne =>
    have happ : lines ++ more = earlier ++ line :: (later ++ more) := by
      rw [hlines, List.append_assoc, List.cons_append]
    exact .intro happ hearlier hline hatt hcause hne

theorem scanOutput_append {stdout more : String} {e : ScanError}
    (hlast : stdout.toList.getLast? = some '\n')
    (h : scanOutput isTarget base stdout = .error e) :
    scanOutput isTarget base (stdout ++ more) = .error e := by
  rw [scanOutput_eq_error_iff] at h ⊢
  rw [String.toList_append, lines_append_of_getLast? hlast]
  exact h.append _

/-- Whatever fails where the lines of an output do fails at the first malformed one. -/
theorem failsAtFirst_of_iff {read : String → Except ScanError ScanOutput}
    {files : RepoPath → Prop} (hfiles : ∀ p, isTarget p = true ↔ files p)
    (hread : ∀ stdout e, read stdout = .error e ↔ scanOutput isTarget base stdout = .error e) :
    FailsAtFirst read files base := by
  obtain rfl : (isTarget · = true) = files := funext fun p => propext (hfiles p)
  refine ⟨?fails, ?error, ?final⟩
  case fails =>
    intro stdout
    simp only [hread, scanOutput_error_iff]
    have hblank : ∀ line, Malformed (isTarget · = true) base line ↔
        trim line ≠ [] ∧ Malformed (isTarget · = true) base line :=
      fun line => (and_iff_right_of_imp Malformed.trim_ne_nil).symm
    exact exists_congr fun line => and_congr_right fun _ => hblank line
  case error =>
    intro stdout e
    rw [hread, scanOutput_eq_error_iff]
  case final =>
    intro stdout more e hlast h
    rw [hread] at h ⊢
    exact scanOutput_append hlast h

/-- An output can be read unless a line that belongs to a file is malformed.  It then fails with the
first such line, counted among all lines, and with what is wrong with the rest behind the file; and
it fails in the same way whatever follows a finished line.  A run over one file is no exception. -/
theorem scan_fails_at_first (base : String) :
    (∀ targets, FailsAtFirst (fun stdout => batch stdout targets base) (· ∈ targets) base) ∧
    ∀ file, FailsAtFirst (fun stdout => single stdout file base) (· = file) base := by
  have hbatch : ∀ targets, FailsAtFirst (fun stdout => batch stdout targets base) (· ∈ targets)
      base :=
    fun targets => failsAtFirst_of_iff (fun p => FileSet.contains_iff)
      fun stdout e => batch_eq_error_iff
  refine ⟨hbatch, fun file => ?_⟩
  have hsingle := hbatch (.ofList [file])
  simp only [← single_eq_batch] at hsingle
  have hmem : (· ∈ FileSet.ofList [file]) = (· = file) := by
    funext p
    rw [FileSet.mem_ofList, List.mem_singleton]
  rw [hmem] at hsingle
  exact hsingle

/-- A line like an error node that names another file, a blank line, and one that belongs to the
file and has a point without a comma: the failure is on the third line, whatever is printed after
it. -/
theorem scan_fails_at_first_foreign :
    let stdout := "b.js (ERROR [0 0] - [0, 1])\r\n\r\n /w/a.js (ERROR [0 0] - [0, 1])\t\r\n"
    let e : ScanError := ⟨3, "/w/a.js (ERROR [0 0] - [0, 1])", .malformedPoint "[0 0]"⟩
    stdout.toList.getLast? = some '\n' ∧ single stdout ⟨"a.js"⟩ "/w" = .error e ∧
      FirstMalformed (· = ⟨"a.js"⟩) "/w" (lines stdout.toList) e ∧
      (∃ line ∈ lines stdout.toList, trim line ≠ [] ∧ Malformed (· = ⟨"a.js"⟩) "/w" line) ∧
      ∀ more, single (stdout ++ more) ⟨"a.js"⟩ "/w" = .error e := by
  intro stdout e
  have hlast : stdout.toList.getLast? = some '\n' := by decide +kernel
  have herror : single stdout ⟨"a.js"⟩ "/w" = .error e := by decide +kernel
  obtain ⟨hfails, hiff, hfinal⟩ := (scan_fails_at_first "/w").2 ⟨"a.js"⟩
  exact ⟨hlast, herror, (hiff stdout e).1 herror, (hfails stdout).1 ⟨e, herror⟩,
    fun more => hfinal stdout more e hlast herror⟩

end ParseAudit.Scan
