import ParseAudit.Proofs.Publish.Run
import ParseAudit.Proofs.Render.Capped
import ParseAudit.Proofs.Render.WorkflowCommand
import ParseAudit.Proofs.Text.Lines
/-!
# What publishing prints

Publishing prints a group of annotations, and a line on the files that failed if there are any.
These lines are the lines of the output: whatever a report holds, none of them is broken.

* `splitOn_textOf_linesOf`: the lines of the output;
* `run_prints`: none of them is broken, and what a reader of the annotations gets.
-/

namespace ParseAudit

namespace Publish

open WorkflowCommand (line read? Shows not_mem_line exists_shows line_eq_iff title)

/-- The line on the files that failed, if there are any. -/
def failureLines (r : Report) : List String :=
  if r.data.failures = [] then []
  else ["::error::Failed to parse " ++ Text.natural r.data.failures.length ++ "/"
    ++ Text.natural r.data.totalFiles.toNat ++ " files"]

theorem failureSummary_eq (r : Report) : failureSummary r = failureLines r := by
  unfold failureSummary failureLines
  cases h : r.data.failures with
  | nil => rfl
  | cons t ts =>
    rw [if_neg (by simp), if_neg (List.cons_ne_nil t ts)]
    simp [ReportView.failedOfTotal, Report.view, coordinateText, h, String.append_assoc]

/-- The lines that publishing writes, in full. -/
theorem linesOf_eq (d : Destinations) (r : Report) :
    linesOf d r =
      "::group::Parsing files" :: (r.view.shownFindings d.maxAnnotations).map (line r.run.os)
        ++ "::endgroup::" :: failureLines r := by
  have hstart : WorkflowCommand.groupStart "Parsing files" = "::group::Parsing files" := by
    decide +kernel
  rw [linesOf, hstart, failureSummary_eq, ReportView.cappedAnnotations_eq_map]
  rfl

theorem feed_not_mem_natural (n : Nat) : '\n' ∉ (Text.natural n).toList := by
  rw [Text.natural, String.toList_ofList]
  intro h
  have hdigit := Nat.isDigit_of_mem_toDigits (by decide) (by decide) h
  exact absurd hdigit (by decide)

/-- No line is broken. -/
theorem feed_not_mem_linesOf {d : Destinations} {r : Report} {l : String} (h : l ∈ linesOf d r) :
    '\n' ∉ l.toList := by
  rw [linesOf_eq, List.mem_append, List.mem_cons, List.mem_cons, List.mem_map] at h
  rcases h with (rfl | ⟨f, -, rfl⟩) | rfl | h
  · decide +kernel
  · exact not_mem_line (by decide) r.run.os f
  · decide +kernel
  · unfold failureLines at h
    split at h
    · cases h
    · obtain rfl := List.mem_singleton.1 h
      simp only [String.toList_append, List.mem_append, not_or]
      refine ⟨⟨⟨⟨?_, feed_not_mem_natural _⟩, ?_⟩, feed_not_mem_natural _⟩, ?_⟩
      all_goals decide +kernel

/-- The output falls into its lines, and nothing stands behind the last one. -/
theorem splitOn_textOf_linesOf (d : Destinations) (r : Report) :
    (textOf (linesOf d r)).toList.splitOn '\n' = (linesOf d r).map String.toList ++ [[]] := by
  have htext : (textOf (linesOf d r)).toList =
      ((linesOf d r).map String.toList).flatMap (· ++ ['\n']) ++ [] := by
    simp [textOf, String.toList_join, List.flatMap_map]
  have hfeed : ∀ l ∈ (linesOf d r).map String.toList, '\n' ∉ l := by
    intro l hl
    obtain ⟨s, hs, rfl⟩ := List.mem_map.1 hl
    exact feed_not_mem_linesOf hs
  rw [htext, Chars.splitOn_flatMap_feed hfeed]
  rfl

/-- The output of publishing is a group of annotations, for as many findings as may be shown, and
one line more if files failed.  A console that takes all of them has exactly these lines, and any
other one has a part of them.  None of them is broken.  Each annotation is read, and what is read
shows its finding; and annotations are the same exactly if all that they show is the same, so that
findings that differ in their severity, their place, their qualified title or their message have
different annotations. -/
theorem run_prints (console : Console) (d : Destinations) (r : Report) (tree : FileTree) :
    let findings := r.view.shownFindings d.maxAnnotations
    let annotations := findings.map (line r.run.os)
    let lines := "::group::Parsing files" :: annotations ++ "::endgroup::" :: failureLines r
    (console.Takes "" lines →
      (run console d r tree).printed = String.join (lines.map (· ++ "\n"))) ∧
      (run console d r tree).printed.toList <+: (String.join (lines.map (· ++ "\n"))).toList ∧
      (String.join (lines.map (· ++ "\n"))).toList.splitOn '\n' =
        lines.map String.toList ++ [[]] ∧
      annotations.length = min d.maxAnnotations r.findings.length ∧
      findings.Subperm (r.findings.map Finding.view) ∧
      (∀ a ∈ annotations, '\n' ∉ a.toList ∧ '\r' ∉ a.toList) ∧
      (∀ f ∈ findings, ∃ a, read? (line r.run.os f) = some a ∧ Shows r.run.os f a) ∧
      ∀ os os' f f', line os f = line os' f' ↔
        f.severity = f'.severity ∧
          f.location.map (·.path.text) = f'.location.map (·.path.text) ∧
          f.location.bind Location.line = f'.location.bind Location.line ∧
          f.location.bind Location.endLine = f'.location.bind Location.endLine ∧
          f.location.bind Location.column = f'.location.bind Location.column ∧
          f.location.bind Location.endColumn = f'.location.bind Location.endColumn ∧
          qualifiedTitle os (title f.code) = qualifiedTitle os' (title f'.code) ∧
          f.message = f'.message := by
  intro findings annotations lines
  have hlines : linesOf d r = lines := linesOf_eq d r
  have htext : textOf (linesOf d r) = String.join (lines.map (· ++ "\n")) := by
    rw [hlines]
    rfl
  rw [← htext, ← hlines]
  refine ⟨fun htakes => printed_run htakes tree, printed_run_prefix_textOf console d r tree,
    splitOn_textOf_linesOf d r, ?_, ReportView.shownFindings_subperm r.view d.maxAnnotations, ?_,
    fun f _ => exists_shows r.run.os f, fun _ _ _ _ => line_eq_iff⟩
  · rw [List.length_map, ReportView.length_shownFindings]
    exact congrArg _ (List.length_map _)
  · intro a ha
    obtain ⟨f, -, rfl⟩ := List.mem_map.1 ha
    exact ⟨not_mem_line (by decide) _ f, not_mem_line (by decide) _ f⟩

/-- A warning with separators and line ends in all its texts, shown before a notice that is in front
of it. -/
theorem run_prints_odd_texts :
    let warning : Finding := ⟨.warning, "", "parse_error", "50%\r\n::x",
      some ⟨⟨"d:,\n%3A"⟩, some 7, none, none, none⟩, none, none, .null⟩
    let notice : Finding := ⟨.info, "", "expected_invalid", "", none, none, none, .null⟩
    let r : Report := ⟨Report.schemaId, ⟨"", ""⟩, ⟨default, none, none, some "a,b"⟩,
      ⟨.fail, ⟨1, 1, 0⟩, []⟩, [notice, warning], ⟨"", "", 2, 1, 0, [⟨"x"⟩], []⟩⟩
    let tree : FileTree := ⟨.emptyDirectory, []⟩
    Console.working.Takes "" ("::group::Parsing files" ::
        [line (some "a,b") warning.view] ++ "::endgroup::" :: failureLines r) ∧
      (run .working ⟨none, none, 1⟩ r tree).printed = textOf ["::group::Parsing files",
        "::warning file=d%3A%2C%0A%253A,line=7,title=Parsing error (a%2Cb)::50%25%0D%0A::x",
        "::endgroup::", "::error::Failed to parse 1/2 files"] ∧
      warning.view ∈ r.view.shownFindings 1 ∧
      ∃ a, read? (line (some "a,b") warning.view) = some a ∧
        Shows (some "a,b") warning.view a ∧ a.level = "warning" ∧
        a.title = "Parsing error (a,b)" := by
  intro warning notice r tree
  have hshown : r.view.shownFindings 1 = [warning.view] := by
    rw [ReportView.shownFindings, ReportView.gravestFirst_eq_filter]
    rfl
  obtain ⟨hprinted, -, -, -, -, -, hread, -⟩ := run_prints .working ⟨none, none, 1⟩ r tree
  rw [hshown] at hprinted hread ⊢
  have htakes := Console.takes_working "" ("::group::Parsing files" ::
    [line (some "a,b") warning.view] ++ "::endgroup::" :: failureLines r)
  obtain ⟨a, ha, hshows⟩ := hread _ (List.mem_singleton_self _)
  refine ⟨htakes, (hprinted htakes).trans (by decide +kernel), List.mem_singleton_self _, a, ha,
    hshows, ?_, ?_⟩
  · have hlevel := hshows.level
    simpa [WorkflowCommand.levelWords, warning, Finding.view] using hlevel
  · rw [hshows.title]
    decide +kernel

end Publish

end ParseAudit
