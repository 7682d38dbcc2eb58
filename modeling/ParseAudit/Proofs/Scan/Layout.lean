import ParseAudit.Proofs.Scan.Reading
import ParseAudit.Proofs.Text.Lines
import ParseAudit.Proofs.Text.Replacing
import ParseAudit.Proofs.Text.Separators
import Mathlib.Data.List.Forall2
/-!
# The layout of an output

How the lines of an output are laid out says nothing: not the way in which they end, not the blanks
at their starts and ends, and not the blank lines among them.  Only the number of the line that an
error is on counts the blank lines in front of it.

* `scanLines_congr`: lines with the same trimmed texts are read as the same;
* `scanLines_withInserted`: lines among which blank ones are put;
* `scanOutput_eq_scanLines`: an output is read as the lines between its line feeds;
* `batch_of_layout`: so a run over some files is read as the same in every layout.
-/

namespace ParseAudit.Scan

open Chars

/-! ## Layouts -/

/-- The lines between the line feeds of an output, with the carriage returns of their line ends.
Behind the last line feed stands a line too, which may be empty. -/
def rawLines (stdout : String) : List (List Char) := stdout.toList.splitOn '\n'

/-- The output with the given lines between its line feeds. -/
def textOf (lines : List (List Char)) : String := String.ofList (['\n'].intercalate lines)

/-- Two lines with the same text between blanks, where the blanks of the second line hold no line
feeds.  A line may have blanks already, such as the carriage return of its line end, and others may
be put in front of them and behind them. -/
inductive Padded : List Char → List Char → Prop where
  | intro {front front' behind behind' : List Char} (text : List Char)
      (hblank : AllBlank front ∧ AllBlank behind) (hblank' : AllBlank front' ∧ AllBlank behind')
      (hfeed : '\n' ∉ front' ++ behind') :
      Padded (front ++ text ++ behind) (front' ++ text ++ behind')

/-- The lines, each with a carriage return at its end but for the last one, which no line feed
follows. -/
def withReturns : List (List Char) → List (List Char)
  | [] => []
  | [line] => [line]
  | line :: next :: lines => (line ++ ['\r']) :: withReturns (next :: lines)

/-- Some lines with others put in: the first list in front of the first line, the second one in
front of the second line and so on, and all that is left behind the last line. -/
def withInserted : List (List (List Char)) → List (List Char) → List (List Char)
  | [], lines => lines
  | gap :: gaps, [] => (gap :: gaps).flatten
  | gap :: gaps, line :: lines => gap ++ line :: withInserted gaps lines

/-- How many lines are put in front of a line, which is given by its number from one. -/
def insertedBefore (gaps : List (List (List Char))) (number : Nat) : Nat :=
  (gaps.take number).flatten.length

theorem insertedBefore_cons (gap : List (List Char)) (gaps : List (List (List Char))) (n : Nat) :
    insertedBefore (gap :: gaps) (n + 1) = gap.length + insertedBefore gaps n := by
  unfold insertedBefore
  rw [List.take_succ_cons, List.flatten_cons, List.length_append]

/-- Every output is laid out from its lines. -/
theorem textOf_rawLines (stdout : String) : textOf (rawLines stdout) = stdout := by
  unfold textOf rawLines
  rw [List.intercalate_splitOn, String.ofList_toList]

/-- The lines that an output is laid out from are found in it again. -/
theorem rawLines_textOf {lines : List (List Char)} (hfeed : ∀ l ∈ lines, '\n' ∉ l)
    (hne : lines ≠ []) : rawLines (textOf lines) = lines := by
  unfold textOf rawLines
  rw [String.toList_ofList, List.splitOn_intercalate '\n' hfeed hne]

theorem rawLines_ne_nil (stdout : String) : rawLines stdout ≠ [] := List.splitOn_ne_nil _ _

theorem feed_not_mem_of_mem_rawLines {stdout : String} {l : List Char} (h : l ∈ rawLines stdout) :
    '\n' ∉ l := not_mem_of_mem_splitOn h

/-! ## Lines -/

section

variable {isTarget : RepoPath → Bool} {base : String} {lines : List (List Char)}

/-- Lines with the same trimmed texts are read as the same. -/
theorem scanLines_congr {lines' : List (List Char)} (h : lines.map trim = lines'.map trim)
    (number : Nat) :
    scanLines isTarget base number lines = scanLines isTarget base number lines' := by
  induction lines generalizing lines' number with
  | nil =>
    have hnil : lines' = [] := List.map_eq_nil_iff.1 h.symm
    rw [hnil]
  | cons line lines ih =>
    cases lines' with
    | nil => cases h
    | cons line' lines' =>
      obtain ⟨hfirst, hrest⟩ := List.cons.inj h
      have hline : scanLine isTarget base line = scanLine isTarget base line' := by
        rw [← scanLine_trim, hfirst, scanLine_trim]
      rw [scanLines_cons, scanLines_cons, hline, hfirst, ih hrest]

/-- The same lines with other numbers. -/
theorem scanLines_add (number count : Nat) :
    scanLines isTarget base (number + count) lines =
      (scanLines isTarget base number lines).mapError fun e =>
        { e with lineNumber := e.lineNumber + count } := by
  induction lines generalizing number with
  | nil => rfl
  | cons line lines ih =>
    rw [scanLines_cons, scanLines_cons]
    cases scanLine isTarget base line with
    | error cause => rfl
    | ok first =>
      dsimp only
      rw [Nat.add_right_comm, ih]
      cases scanLines isTarget base (number + 1) lines <;> rfl

/-- Blank lines in front of others only move these down. -/
theorem scanLines_blank_append {blanks : List (List Char)} (h : ∀ l ∈ blanks, trim l = [])
    (number : Nat) :
    scanLines isTarget base number (blanks ++ lines) =
      scanLines isTarget base (number + blanks.length) lines := by
  induction blanks generalizing number with
  | nil => rfl
  | cons l ls ih =>
    obtain ⟨hl, hls⟩ := List.forall_mem_cons.1 h
    rw [List.cons_append, scanLines_cons, scanLine_of_trim_eq_nil hl]
    dsimp only
    rw [ih hls, List.length_cons, Nat.add_assoc, Nat.add_comm 1]
    cases scanLines isTarget base (number + (ls.length + 1)) lines <;> rfl

/-- Blank lines behind others change nothing. -/
theorem scanLines_append_blank {blanks : List (List Char)} (h : ∀ l ∈ blanks, trim l = [])
    (number : Nat) :
    scanLines isTarget base number (lines ++ blanks) = scanLines isTarget base number lines := by
  induction lines generalizing number with
  | nil =>
    have hblanks : scanLines isTarget base number (blanks ++ []) =
        scanLines isTarget base (number + blanks.length) [] := scanLines_blank_append h number
    rw [List.append_nil] at hblanks
    exact hblanks
  | cons line lines ih => rw [List.cons_append, scanLines_cons, scanLines_cons, ih]

/-- An error is on one of the lines. -/
theorem le_lineNumber {number : Nat} {e : ScanError}
    (h : scanLines isTarget base number lines = .error e) : number ≤ e.lineNumber := by
  obtain ⟨earlier, line, later, cause, -, -, -, rfl⟩ := scanLines_eq_error_iff.1 h
  exact Nat.le_add_right number earlier.length

/-- Blank lines that are put among others move an error down by as many lines as are put in front of
its line, and change nothing else. -/
theorem scanLines_withInserted {gaps : List (List (List Char))}
    (h : ∀ gap ∈ gaps, ∀ l ∈ gap, trim l = []) (number : Nat) :
    scanLines isTarget base (number + 1) (withInserted gaps lines) =
      (scanLines isTarget base (number + 1) lines).mapError fun e =>
        { e with lineNumber := e.lineNumber + insertedBefore gaps (e.lineNumber - number) } := by
  induction lines generalizing gaps number with
  | nil =>
    have hblank : ∀ l ∈ gaps.flatten, trim l = [] := by
      intro l hl
      obtain ⟨gap, hgap, hl⟩ := List.mem_flatten.1 hl
      exact h gap hgap l hl
    have hall : withInserted gaps [] = [] ++ gaps.flatten := by cases gaps <;> rfl
    rw [hall, scanLines_append_blank hblank]
    rfl
  | cons line lines ih =>
    cases gaps with
    | nil =>
      have hzero : ∀ n, insertedBefore [] n = 0 := fun n => by simp [insertedBefore]
      have hnone : withInserted [] (line :: lines) = line :: lines := rfl
      simp only [hzero, Nat.add_zero, hnone]
      cases scanLines isTarget base (number + 1) (line :: lines) <;> rfl
    | cons gap gaps =>
      obtain ⟨hgap, hgaps⟩ := List.forall_mem_cons.1 h
      rw [withInserted, scanLines_blank_append hgap, scanLines_add, scanLines_cons,
        scanLines_cons]
      cases scanLine isTarget base line with
      | error cause =>
        have hone : number + 1 - number = 0 + 1 := by omega
        simp only [Except.mapError, hone, insertedBefore_cons]
        rfl
      | ok first =>
        dsimp only
        rw [ih hgaps]
        cases hrest : scanLines isTarget base (number + 1 + 1) lines with
        | ok others => rfl
        | error e =>
          have hle := le_lineNumber hrest
          have hnext : e.lineNumber - number = (e.lineNumber - (number + 1)) + 1 := by omega
          simp only [Except.map, Except.mapError, hnext, insertedBefore_cons]
          rw [Nat.add_assoc, Nat.add_comm (insertedBefore _ _)]

end

/-! ## Outputs -/

variable {isTarget : RepoPath → Bool} {base : String}

/-- An output is read as the lines between its line feeds. -/
theorem scanOutput_eq_scanLines (stdout : String) :
    scanOutput isTarget base stdout = scanLines isTarget base 1 (rawLines stdout) := by
  obtain ⟨behind, hbehind, hlines⟩ := map_trim_splitOn stdout.toList
  unfold scanOutput rawLines
  rw [scanLines_congr hlines, scanLines_append_blank hbehind]

theorem Padded.trim_eq {line line' : List Char} (h : Padded line line') :
    trim line' = trim line := by
  obtain ⟨text, hblank, hblank', -⟩ := h
  rw [trim_append_blank hblank.2, trim_blank_append hblank.1, trim_append_blank hblank'.2,
    trim_blank_append hblank'.1]

/-- Blanks may be put in front of a line and behind it. -/
theorem padded_between {front behind : List Char} (line : List Char)
    (hblank : AllBlank front ∧ AllBlank behind) (hfeed : '\n' ∉ front ++ behind) :
    Padded line (front ++ line ++ behind) := by
  have h := Padded.intro line ⟨allBlank_nil, allBlank_nil⟩ hblank hfeed
  rwa [List.nil_append, List.append_nil] at h

theorem Padded.refl (line : List Char) : Padded line line := by
  have h := padded_between line ⟨allBlank_nil, allBlank_nil⟩ List.not_mem_nil
  rwa [List.nil_append, List.append_nil] at h

/-- Lines that are padded hold no line feeds if they held none before. -/
theorem feed_not_mem_of_padded {lines lines' : List (List Char)}
    (h : List.Forall₂ Padded lines lines') (hlines : ∀ l ∈ lines, '\n' ∉ l) :
    ∀ l ∈ lines', '\n' ∉ l := by
  induction h with
  | nil => exact nofun
  | cons hfirst _ ih =>
    obtain ⟨hline, hrest⟩ := List.forall_mem_cons.1 hlines
    refine List.forall_mem_cons.2 ⟨?_, ih hrest⟩
    obtain ⟨text, -, -, hfeed⟩ := hfirst
    simp only [List.mem_append, not_or] at hfeed hline ⊢
    exact ⟨⟨hfeed.1, hline.1.2⟩, hfeed.2⟩

/-- Blanks at the starts and ends of lines do not matter. -/
theorem scanOutput_padded {stdout : String} {padded : List (List Char)}
    (h : List.Forall₂ Padded (rawLines stdout) padded) :
    scanOutput isTarget base (textOf padded) = scanOutput isTarget base stdout := by
  have hfeed := feed_not_mem_of_padded h fun l hl => feed_not_mem_of_mem_rawLines hl
  have hne : padded ≠ [] := by
    rintro rfl
    exact rawLines_ne_nil stdout (List.forall₂_nil_right_iff.1 h)
  have htrim : padded.map trim = (rawLines stdout).map trim := by
    rw [← List.forall₂_eq_eq_eq, List.forall₂_map_left_iff, List.forall₂_map_right_iff]
    exact h.flip.imp fun line line' hline => hline.trim_eq
  rw [scanOutput_eq_scanLines, scanOutput_eq_scanLines, rawLines_textOf hfeed hne,
    scanLines_congr htrim]

/-- A carriage return in front of each line feed belongs to the line that ends there. -/
theorem replaceAll_textOf {lines : List (List Char)} (hfeed : ∀ l ∈ lines, '\n' ∉ l) :
    Text.replaceAll "\n" "\r\n" (textOf lines) = textOf (withReturns lines) := by
  have hchars : replaceAll ['\n'] ['\r', '\n'] (['\n'].intercalate lines) =
      ['\n'].intercalate (withReturns lines) := by
    induction lines with
    | nil => exact replaceAll_nil _ _
    | cons line lines ih =>
      obtain ⟨hline, hrest⟩ := List.forall_mem_cons.1 hfeed
      cases lines with
      | nil =>
        rw [withReturns, List.intercalate_singleton]
        exact replaceAll_of_not_mem hline _
      | cons next lines =>
        have hne : withReturns (next :: lines) ≠ [] := by cases lines <;> exact List.cons_ne_nil _ _
        obtain ⟨first, others, hothers⟩ := List.exists_cons_of_ne_nil hne
        rw [List.intercalate_cons_cons, List.append_assoc, List.singleton_append,
          replaceAll_append_singleton hline, ih hrest, withReturns, hothers,
          List.intercalate_cons_cons]
        simp only [List.append_assoc, List.cons_append, List.nil_append]
  have hfeedText : "\n".toList = ['\n'] := rfl
  have hreturnText : "\r\n".toList = ['\r', '\n'] := rfl
  unfold Text.replaceAll textOf
  rw [hfeedText, hreturnText, String.toList_ofList, hchars]

theorem padded_withReturns (lines : List (List Char)) :
    List.Forall₂ Padded lines (withReturns lines) := by
  have hpad : ∀ line, Padded line (line ++ ['\r']) := by
    intro line
    have h : Padded line ([] ++ line ++ ['\r']) := padded_between line (by decide) (by decide)
    rwa [List.nil_append] at h
  fun_induction withReturns lines with
  | case1 => exact .nil
  | case2 line => exact .cons (.refl line) .nil
  | case3 line next lines ih => exact .cons (hpad line) ih

/-- The lines that are put among others are all that is added to them. -/
theorem mem_withInserted {gaps : List (List (List Char))} {lines : List (List Char)}
    {l : List Char} (h : l ∈ withInserted gaps lines) : l ∈ lines ∨ ∃ gap ∈ gaps, l ∈ gap := by
  fun_induction withInserted gaps lines with
  | case1 lines => exact .inl h
  | case2 gap gaps => exact .inr (List.mem_flatten.1 h)
  | case3 gap gaps line lines ih =>
    rw [List.mem_append, List.mem_cons] at h
    rcases h with hgap | rfl | hrest
    · exact .inr ⟨gap, List.mem_cons_self, hgap⟩
    · exact .inl List.mem_cons_self
    · rcases ih hrest with hmem | ⟨other, hother, hmem⟩
      · exact .inl (List.mem_cons_of_mem line hmem)
      · exact .inr ⟨other, List.mem_cons_of_mem gap hother, hmem⟩

theorem withInserted_ne_nil {gaps : List (List (List Char))} {lines : List (List Char)}
    (hne : lines ≠ []) : withInserted gaps lines ≠ [] := by
  fun_cases withInserted gaps lines with
  | case1 => exact hne
  | case2 => exact absurd rfl hne
  | case3 gap gaps line lines =>
    exact List.append_ne_nil_of_right_ne_nil gap (List.cons_ne_nil line _)

/-- Blank lines that are put among the lines of an output only move an error down. -/
theorem scanOutput_withInserted {stdout : String} {gaps : List (List (List Char))}
    (h : ∀ gap ∈ gaps, ∀ l ∈ gap, AllBlank l ∧ '\n' ∉ l) :
    scanOutput isTarget base (textOf (withInserted gaps (rawLines stdout))) =
      (scanOutput isTarget base stdout).mapError fun e =>
        { e with lineNumber := e.lineNumber + insertedBefore gaps e.lineNumber } := by
  have hblank : ∀ gap ∈ gaps, ∀ l ∈ gap, trim l = [] :=
    fun gap hgap l hl => trim_eq_nil_iff.2 (h gap hgap l hl).1
  have hfeed : ∀ l ∈ withInserted gaps (rawLines stdout), '\n' ∉ l := by
    intro l hl
    rcases mem_withInserted hl with hl | ⟨gap, hgap, hl⟩
    · exact feed_not_mem_of_mem_rawLines hl
    · exact (h gap hgap l hl).2
  have hne : withInserted gaps (rawLines stdout) ≠ [] :=
    withInserted_ne_nil (rawLines_ne_nil stdout)
  rw [scanOutput_eq_scanLines, scanOutput_eq_scanLines, rawLines_textOf hfeed hne]
  exact scanLines_withInserted hblank 0

/-- A run over some files is read as its lines are, and fails where they do. -/
theorem batch_mapError {stdout stdout' : String} {targets : FileSet} {f : ScanError → ScanError}
    (h : scanOutput targets.contains base stdout' =
      (scanOutput targets.contains base stdout).mapError f) :
    batch stdout' targets base = (batch stdout targets base).mapError f := by
  unfold batch
  rw [h]
  cases scanOutput targets.contains base stdout <;> rfl

theorem batch_congr {stdout stdout' : String} {targets : FileSet}
    (h : scanOutput targets.contains base stdout' = scanOutput targets.contains base stdout) :
    batch stdout' targets base = batch stdout targets base := by
  unfold batch
  rw [h]

/-- The layout of an output says nothing.  It is read as the same with a carriage return in front of
each line feed, and with blanks other than line feeds at the starts and ends of its lines, be it
that it can be read or that it fails.  With blank lines among its lines it is read as the same too,
or fails on the same line, which is as much further down as blank lines were put in front of it. -/
theorem batch_of_layout (stdout base : String) (targets : FileSet) :
    batch (Text.replaceAll "\n" "\r\n" stdout) targets base = batch stdout targets base ∧
      (∀ padded, List.Forall₂ Padded (rawLines stdout) padded →
        batch (textOf padded) targets base = batch stdout targets base) ∧
      ∀ gaps : List (List (List Char)), (∀ gap ∈ gaps, ∀ l ∈ gap, AllBlank l ∧ '\n' ∉ l) →
        batch (textOf (withInserted gaps (rawLines stdout))) targets base =
          (batch stdout targets base).mapError fun e =>
            { e with lineNumber := e.lineNumber + insertedBefore gaps e.lineNumber } := by
  have hpadded : ∀ padded, List.Forall₂ Padded (rawLines stdout) padded →
      batch (textOf padded) targets base = batch stdout targets base :=
    fun padded h => batch_congr (scanOutput_padded h)
  refine ⟨?returns, hpadded, fun gaps h => batch_mapError (scanOutput_withInserted h)⟩
  have htext : Text.replaceAll "\n" "\r\n" stdout = textOf (withReturns (rawLines stdout)) := by
    rw [← replaceAll_textOf fun l hl => feed_not_mem_of_mem_rawLines hl, textOf_rawLines]
  rw [htext]
  exact hpadded _ (padded_withReturns _)

/-- An output that fails on its second line: it fails there with blanks around its lines, and on the
fifth line with one blank line in front of the first line, two in front of the second one, and one
behind that. -/
theorem batch_of_layout_malformed :
    let stdout := "b.js\r\na.js (ERROR [0 0] - [0, 1])"
    let targets : FileSet := .ofList [⟨"a.js"⟩]
    let e (number : Nat) : ScanError :=
      ⟨number, "a.js (ERROR [0 0] - [0, 1])", .malformedPoint "[0 0]"⟩
    let padded := ["b.js \r".toList, "\ta.js (ERROR [0 0] - [0, 1])\u3000".toList]
    let gaps := [["\t\r".toList], [[], " ".toList], ["\r".toList]]
    List.Forall₂ Padded (rawLines stdout) padded ∧
      (∀ gap ∈ gaps, ∀ l ∈ gap, AllBlank l ∧ '\n' ∉ l) ∧
      batch stdout targets "/w" = .error (e 2) ∧
      batch (textOf padded) targets "/w" = .error (e 2) ∧
      batch (textOf (withInserted gaps (rawLines stdout))) targets "/w" = .error (e 5) := by
  intro stdout targets e padded gaps
  have hlines : rawLines stdout = ["b.js\r".toList, "a.js (ERROR [0 0] - [0, 1])".toList] := by
    decide +kernel
  have hpadded : List.Forall₂ Padded (rawLines stdout) padded := by
    -- In the first line the blank is put in front of the carriage return.
    have hfirst : Padded ([] ++ "b.js".toList ++ ['\r']) ([] ++ "b.js".toList ++ [' ', '\r']) :=
      .intro _ (by decide) (by decide) (by decide)
    have hlast : Padded "a.js (ERROR [0 0] - [0, 1])".toList
        (['\t'] ++ "a.js (ERROR [0 0] - [0, 1])".toList ++ ['\u3000']) :=
      padded_between _ (by decide) (by decide)
    rw [hlines]
    exact .cons hfirst (.cons hlast .nil)
  have hgaps : ∀ gap ∈ gaps, ∀ l ∈ gap, AllBlank l ∧ '\n' ∉ l := by decide +kernel
  have herror : batch stdout targets "/w" = .error (e 2) := by decide +kernel
  obtain ⟨-, hsame, hmoved⟩ := batch_of_layout stdout "/w" targets
  refine ⟨hpadded, hgaps, herror, (hsame padded hpadded).trans herror, ?_⟩
  rw [hmoved gaps hgaps, herror]
  rfl

end ParseAudit.Scan
