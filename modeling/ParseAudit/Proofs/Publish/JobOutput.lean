import ParseAudit.Proofs.Check.Soundness
import ParseAudit.Proofs.Publish.Run
import ParseAudit.Proofs.RepoPath.Twice
import ParseAudit.Proofs.Text.Lines
import ParseAudit.Proofs.Tree.Writing
/-!
# Job outputs are read back

A job output of several lines is read up to the first line that equals its delimiter.  What is read
is what was written, since the delimiter is none of the lines and no line holds a line feed.

* `delimiter_eq_candidate`: the search for a delimiter ends, with the first candidate that is free;
* `readEntry?_outputEntry`: any entry of whole lines is read back, whatever stands after it;
* `feed_not_mem_failures`: a file that failed was named by a line of the parser, so there is no line
  feed in its name;
* `run_job_output`: both together, for the report of any check.
-/

namespace ParseAudit.Publish

open ParseAudit.Action

/-! ## The search for a delimiter -/

/-- The delimiter after some rounds of the search. -/
def candidate : Nat → String
  | 0 => delimiterBase
  | k + 1 => candidate k ++ "_"

theorem length_candidate (k : Nat) : (candidate k).length = delimiterBase.length + k := by
  induction k with
  | zero => rfl
  | succ k ih => rw [candidate, String.length_append, ih]; rfl

theorem candidate_injective : Function.Injective candidate := by
  intro j k h
  have hlength := congrArg String.length h
  rw [length_candidate, length_candidate] at hlength
  exact Nat.add_left_cancel hlength

/-- The candidates are more than the lines, so one of them is free. -/
theorem le_length_of_candidates_mem {lines : List String} {k : Nat}
    (h : ∀ j < k, candidate j ∈ lines) : k ≤ lines.length := by
  have hnodup : ((List.range k).map candidate).Nodup :=
    List.nodup_range.map candidate_injective
  have hsubset : (List.range k).map candidate ⊆ lines := by
    intro d hd
    obtain ⟨j, hj, rfl⟩ := List.mem_map.1 hd
    exact h j (List.mem_range.1 hj)
  simpa using hnodup.length_le_of_subset hsubset

/-- The search passes over candidates that are taken, until one is free or the fuel is used up. -/
theorem delimiterFrom_candidate (fuel k : Nat) (lines : List String) :
    ∃ i ≤ fuel, delimiterFrom fuel (candidate k) lines = candidate (k + i) ∧
      (∀ j < i, candidate (k + j) ∈ lines) ∧ (i < fuel → candidate (k + i) ∉ lines) := by
  induction fuel generalizing k with
  | zero => exact ⟨0, Nat.le_refl 0, rfl, nofun, nofun⟩
  | succ fuel ih =>
    unfold delimiterFrom
    split
    · next htaken =>
      -- The rounds are counted from the next candidate on, so one more has been passed over.
      obtain ⟨i, hi, hsearch, hpassed, hfree⟩ := ih (k + 1)
      rw [Nat.add_right_comm] at hsearch hfree
      refine ⟨i + 1, Nat.succ_le_succ hi, hsearch, ?_, fun h => hfree (Nat.lt_of_succ_lt_succ h)⟩
      intro j hj
      cases j with
      | zero => exact List.contains_iff_mem.1 htaken
      | succ j =>
        have hnext := hpassed j (Nat.lt_of_succ_lt_succ hj)
        rwa [Nat.add_right_comm] at hnext
    · next hfree =>
      exact ⟨0, Nat.zero_le _, rfl, nofun, fun _ h => hfree (List.contains_iff_mem.2 h)⟩

/-- The search ends within as many rounds as there are lines.  Its candidates up to there are taken,
and the one that it ends with is free. -/
theorem delimiter_eq_candidate (lines : List String) :
    ∃ k ≤ lines.length, delimiter lines = candidate k ∧ candidate k ∉ lines ∧
      ∀ j < k, candidate j ∈ lines := by
  obtain ⟨i, -, hsearch, hpassed, hfree⟩ := delimiterFrom_candidate (lines.length + 1) 0 lines
  simp only [Nat.zero_add] at hsearch hpassed hfree
  have hle : i ≤ lines.length := le_length_of_candidates_mem hpassed
  exact ⟨i, hle, hsearch, hfree (Nat.lt_succ_of_le hle), hpassed⟩

theorem delimiter_not_mem (lines : List String) : delimiter lines ∉ lines := by
  obtain ⟨k, -, hsearch, hfree, -⟩ := delimiter_eq_candidate lines
  rwa [hsearch]

/-- Nothing in a delimiter ends a line. -/
theorem feed_not_mem_candidate (k : Nat) : '\n' ∉ (candidate k).toList := by
  induction k with
  | zero => simp [candidate, delimiterBase]
  | succ k ih =>
    rw [candidate, String.toList_append, List.mem_append, not_or]
    exact ⟨ih, by decide⟩

theorem feed_not_mem_delimiter (lines : List String) : '\n' ∉ (delimiter lines).toList := by
  obtain ⟨k, -, hsearch, -⟩ := delimiter_eq_candidate lines
  rw [hsearch]
  exact feed_not_mem_candidate k

/-! ## Reading entries -/

/-- The lines up to the first one that equals the delimiter, and the lines after that one. -/
def untilStop? (stop : List Char) :
    List (List Char) → Option (List (List Char) × List (List Char))
  | [] => none
  | line :: rest =>
    if line = stop then some ([], rest)
    else (untilStop? stop rest).map fun read => (line :: read.1, read.2)

/-- Reads the output of a name at the start of a text: its lines, and the text after it. -/
def readEntry? (name text : List Char) : Option (List (List Char) × List Char) :=
  match text.splitOn '\n' with
  | [] => none
  | first :: rest => do
    let stop ← Chars.stripStart? (name ++ ['<', '<']) first
    let (lines, after) ← untilStop? stop rest
    return (lines, ['\n'].intercalate after)

theorem untilStop?_append {stop : List Char} {lines : List (List Char)} (h : stop ∉ lines)
    (after : List (List Char)) :
    untilStop? stop (lines ++ stop :: after) = some (lines, after) := by
  induction lines with
  | nil => exact if_pos rfl
  | cons line lines ih =>
    rw [List.mem_cons, not_or] at h
    rw [List.cons_append, untilStop?, if_neg (Ne.symm h.1), ih h.2]
    rfl

/-- An entry is a first line, the lines of the output and the delimiter. -/
theorem toList_outputEntry (name : String) (lines : List String) :
    (outputEntry name lines).toList =
      ((name.toList ++ ['<', '<'] ++ (delimiter lines).toList) ::
        (lines.map String.toList ++ [(delimiter lines).toList])).flatMap (· ++ ['\n']) := by
  simp only [outputEntry, String.toList_append, String.toList_join, List.flatMap_cons,
    List.flatMap_append, List.flatMap_map, List.flatMap_nil, List.append_assoc, List.append_nil]
  rfl

/-- An entry of whole lines is read back, and whatever stands after it is left. -/
theorem readEntry?_outputEntry {name : String} {lines : List String} (hname : '\n' ∉ name.toList)
    (hlines : ∀ line ∈ lines, '\n' ∉ line.toList) (more : List Char) :
    readEntry? name.toList ((outputEntry name lines).toList ++ more) =
      some (lines.map String.toList, more) := by
  let stop := (delimiter lines).toList
  have hstop : '\n' ∉ stop := feed_not_mem_delimiter lines
  -- The entry falls into the lines that it was made of, of which only the last is the delimiter.
  have hfree : stop ∉ lines.map String.toList := by
    rintro hmem
    obtain ⟨line, hline, heq⟩ := List.mem_map.1 hmem
    exact delimiter_not_mem lines (String.toList_inj.1 heq ▸ hline)
  have hwhole : ∀ l ∈ (name.toList ++ ['<', '<'] ++ stop) ::
      (lines.map String.toList ++ [stop]), '\n' ∉ l := by
    intro l hl
    simp only [List.mem_cons, List.mem_append, List.mem_map, List.not_mem_nil, or_false] at hl
    rcases hl with rfl | ⟨line, hline, rfl⟩ | rfl
    · simp only [List.mem_append, not_or]
      exact ⟨⟨hname, by decide⟩, hstop⟩
    · exact hlines line hline
    · exact hstop
  have hfirst : Chars.stripStart? (name.toList ++ ['<', '<'])
      (name.toList ++ ['<', '<'] ++ stop) = some stop := Chars.stripStart?_eq_some_iff.2 rfl
  have hrest : untilStop? stop (lines.map String.toList ++ [stop] ++ more.splitOn '\n') =
      some (lines.map String.toList, more.splitOn '\n') := by
    rw [List.append_assoc]
    exact untilStop?_append hfree _
  unfold readEntry?
  rw [toList_outputEntry, Chars.splitOn_flatMap_feed hwhole, List.cons_append]
  simp only [hfirst, hrest, Option.bind_eq_bind, Option.bind_some]
  rw [List.intercalate_splitOn]
  rfl

/-! ## The files that failed -/

open Invocation in
/-- A line of the parser that belongs to a file does not hold a line feed, and neither does the name
that it gives the file. -/
theorem feed_not_mem_of_hasError {base : String} {calls : List Exchange} {t : RepoPath}
    (h : HasError base calls t) : '\n' ∉ t.text.toList := by
  obtain ⟨x, -, -, line, hline, before, after, hatt, rfl, -⟩ := h
  intro hfeed
  -- Normalizing puts no line feed into a name, so it was in the line already.
  have hbefore : '\n' ∈ before := by
    obtain ⟨b, -, hb⟩ := Chars.exists_trimEnd before
    rcases RepoPath.mem_toList_normalize hfeed with hput | hmem
    · exact absurd hput (by decide)
    · rw [String.toList_ofList] at hmem
      exact hb ▸ List.mem_append_left b hmem
  have hwithin : '\n' ∈ line := by
    obtain ⟨b, b', -, -, hs⟩ := Chars.exists_trim line
    have htrim : '\n' ∈ Chars.trim line := hatt.cut.append ▸ List.mem_append_left after hbefore
    exact hs ▸ List.mem_append_left b' (List.mem_append_right b htrim)
  exact Chars.feed_not_mem_of_mem_lines hline hwithin

open Invocation in
theorem feed_not_mem_failures {respond : Responder} {clock : Clock} {request : CheckRequest}
    {tree : FileTree} {result : CheckResult}
    (hok : (Check.run respond clock request tree).traced.outcome = .ok result) {t : RepoPath}
    (ht : t ∈ result.report.data.failures) : '\n' ∉ t.text.toList := by
  obtain ⟨settings, targets, invalid, scanned, -, -, -, hscanned, rfl⟩ :=
    Check.run_gives_iff.1 (gives_of_outcome hok)
  obtain ⟨calls, outs, -, -, hreads, rfl⟩ := callRuns_gives_iff.1 (collect_gives_iff.1 hscanned)
  have hexact := Tally.exact_ofRecords (ScanOutput.concat outs).records invalid
  obtain ⟨-, -, herror⟩ := (hexact.failures.mem_iff t).1 ht
  exact feed_not_mem_of_hasError ((anyError_exchanges_iff hreads).1 (anyError_iff.2 herror))

/-! ## Whole runs -/

/-- What publishing appends to the file of job outputs stands after what was in it, and the summary
of the steps is appended after that. -/
theorem appended_of_run {console : Console} {d : Destinations} {r : Report} {path : String}
    {tree tree' : FileTree} (hpath : d.jobOutput = some path)
    (hrun : (run console d r).Gives tree () tree') :
    ∃ old mid, (tree.read path = .ok old ∨ tree.read path = .error .notFound ∧ old = []) ∧
      mid.read path = .ok (old ++ Octets.ofText
        (outputEntry "failures" (r.data.failures.map RepoPath.text))) ∧
      (withPath d.stepSummary (appendStepSummary r)).Gives mid () tree' := by
  obtain ⟨-, -, mid, happend, hsummary⟩ := run_gives_iff.1 hrun
  rw [hpath] at happend
  obtain ⟨_, _, hfirst, hlog⟩ := gives_bind_iff.1 happend
  obtain ⟨-, rfl⟩ := (quiet_log _ _ _ _).unique hlog
  obtain ⟨old, hold, hnew⟩ :=
    FileTree.readAt_of_modifyOctets (gives_change_iff.1 (gives_within_iff.1 hfirst))
  exact ⟨old, _, hold, hnew, hsummary⟩

/-- The job output of any check is read back.  Publishing its report appends one entry, whose
delimiter was found in as many rounds at most as there are lines; no file that failed holds a line
feed or equals the delimiter; and a reader of the entry gets the files that failed, in order, and
has read all of it, whatever was appended next. -/
theorem run_job_output (respond : Responder) (clock : Clock) (request : CheckRequest)
    (tree : FileTree) (result : CheckResult)
    (hok : (Check.run respond clock request tree).traced.outcome = .ok result) :
    let failures := result.report.data.failures.map RepoPath.text
    (∀ lines, ∃ k ≤ lines.length, delimiter lines = candidate k ∧ candidate k ∉ lines ∧
      ∀ j < k, candidate j ∈ lines) ∧
    (∀ t ∈ failures, '\n' ∉ t.toList ∧ t ≠ delimiter failures) ∧
    (∀ more, readEntry? "failures".toList ((outputEntry "failures" failures).toList ++ more) =
      some (failures.map String.toList, more)) ∧
    (∀ console d path before after, d.jobOutput = some path →
      (run console d result.report).Gives before () after →
      ∃ old mid, (before.read path = .ok old ∨ before.read path = .error .notFound ∧ old = []) ∧
        mid.read path = .ok (old ++ Octets.ofText (outputEntry "failures" failures)) ∧
        (withPath d.stepSummary (appendStepSummary result.report)).Gives mid () after) := by
  intro failures
  have hfeed : ∀ t ∈ failures, '\n' ∉ t.toList := by
    intro t ht
    obtain ⟨file, hfile, rfl⟩ := List.mem_map.1 ht
    exact feed_not_mem_failures hok hfile
  have hname : '\n' ∉ "failures".toList := by decide +kernel
  refine ⟨delimiter_eq_candidate, ?_, readEntry?_outputEntry hname hfeed, ?_⟩
  · intro t ht
    refine ⟨hfeed t ht, ?_⟩
    rintro rfl
    exact delimiter_not_mem failures ht
  · exact fun console d path before after => appended_of_run

/-- Two files whose names are the first two candidates for a delimiter fail, and one whose name
holds a line feed is checked, but no line of the parser names it. -/
theorem run_job_output_candidates :
    let respond : Responder := fun _ _ => Action.pure
      ⟨"PARSEGUARD_EOF (ERROR [0, 0] - [0, 1])\nPARSEGUARD_EOF_ (MISSING x [2, 0] - [2, 0])\n" ++
        "P\nQ (ERROR [0, 0] - [0, 1])\n", some 1⟩
    let request : CheckRequest := ⟨"/", none, "", { Overrides.none with
      parser := some "p", files := ["P*"] }⟩
    let tree : FileTree := ⟨.directory (["P\nQ", "PARSEGUARD_EOF", "PARSEGUARD_EOF_"].map
      fun name => (Octets.ofText name, .file [] false)), []⟩
    let clock : Clock := ⟨default, default⟩
    ∃ result, (Check.run respond clock request tree).traced.outcome = .ok result ∧
      result.report.data = ⟨"p", "batch", 3, 1, 0,
        [⟨"PARSEGUARD_EOF"⟩, ⟨"PARSEGUARD_EOF_"⟩], []⟩ ∧
      outputEntry "failures" (result.report.data.failures.map RepoPath.text) =
        "failures<<PARSEGUARD_EOF__\nPARSEGUARD_EOF\nPARSEGUARD_EOF_\nPARSEGUARD_EOF__\n" ∧
      ∀ more, readEntry? "failures".toList ((outputEntry "failures"
          (result.report.data.failures.map RepoPath.text)).toList ++ more) =
        some ((result.report.data.failures.map RepoPath.text).map String.toList, more) := by
  intro respond request tree clock
  let settings : Settings :=
    ⟨⟨⟨["P*"], none, .patterns⟩, ⟨[], none, .patterns⟩⟩, "p", ["parse", "-q", "-t"], .batch, 50⟩
  let targets : FileSet := .ofList [⟨"P\nQ"⟩, ⟨"PARSEGUARD_EOF"⟩, ⟨"PARSEGUARD_EOF_"⟩]
  have hsettings : Check.settingsOf request = .ok settings := by decide +kernel
  have htargets : (Selection.resolve tree "/" settings.files).outcome = .ok targets :=
    Selection.resolve_root_eq_ok (by decide +kernel)
  have hinvalid : (Selection.resolve tree "/" settings.invalidFiles).outcome = .ok (.ofList []) :=
    Selection.resolve_eq_ok_ofList (by decide +kernel)
  obtain ⟨result, hok, hdata⟩ : ∃ result, (Check.run respond clock request tree).traced.outcome =
      .ok result ∧ result.report.data = ⟨"p", "batch", 3, 1, 0,
        [⟨"PARSEGUARD_EOF"⟩, ⟨"PARSEGUARD_EOF_"⟩], []⟩ := by
    apply Check.exists_run_of_collect hsettings htargets hinvalid
    decide +kernel
  obtain ⟨-, -, hread, -⟩ := run_job_output respond clock request tree result hok
  refine ⟨result, hok, hdata, ?_, hread⟩
  rw [hdata]
  decide +kernel

end ParseAudit.Publish
