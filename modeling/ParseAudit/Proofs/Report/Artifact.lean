import ParseAudit.Command.Run
import ParseAudit.Proofs.Check.Soundness
import ParseAudit.Proofs.Publish.Printed
import ParseAudit.Proofs.Report.Codec
import ParseAudit.Proofs.Tree.Naming
/-!
# Reports survive the artifact

A report that was written is read back as it was, so that what is rendered from the file is what was
rendered when it was written.  The reader bounds how deep a document may nest, and floating-point
numbers are left out; no report of a check comes near to either.

* `read_serialize`: a report is read back from its text;
* `portable_of_run`, `portable_failureReport`: the reports that checks make;
* `runMarkdown_eq_render`, `runAnnotations_eq_print`: rendering from a file;
* `report_survives`: all of it.
-/

namespace ParseAudit

open ParseAudit.Action Json

/-! ## From the text of a report -/

namespace Report

/-- A report of the schema of this library.  The data of its findings hold no floating-point number
and nest at most a hundred levels deep, and the members of their objects are in the order of their
keys, as they are wherever objects are maps. -/
structure Portable (r : Report) : Prop where
  schema : r.schema = schemaId
  data : ∀ f ∈ r.findings, Plain 100 f.data ∧ Ordered f.data

/-- The schema is found, wherever the reader puts it. -/
theorem schemaOf_sorted (r : Report) : schemaOf r.toJson.sorted = r.schema := by
  have hget : Members.get? (sortedMembers [] [("schema", .str r.schema), ("tool", r.tool.toJson),
      ("run", r.run.toJson), ("verdict", r.verdict.toJson),
      ("findings", .arr (r.findings.map Finding.toJson)), ("data", r.data.toJson)]) "schema" =
      some (.str r.schema) := by
    rw [get?_sortedMembers (by simp)]
    rfl
  show ((Members.get? _ "schema").bind Json.text?).getD "" = r.schema
  rw [hget]
  rfl

/-- A report is read as it was written. -/
theorem read_serialize {r : Report} (h : r.Portable) : read r.serialize = .ok r := by
  have hkept : Kept 103 ofJson? toJson r := Report.kept h.data
  have hparse : Json.parse? r.serialize = some r.toJson.sorted :=
    parse?_pretty (hkept.plain.mono (by decide))
  unfold read
  simp only [hparse, schemaOf_sorted, h.schema, if_true, hkept.read]

end Report

/-! ## The reports of checks -/

theorem Finding.readable_data {records : List Record} {invalid : FileSet} {f : Finding}
    (hf : f ∈ (Evaluation.ofRecords records invalid).findings) :
    Plain 100 f.data ∧ Ordered f.data := by
  have hnode : ∀ r : Record, Plain 100 (.obj [("label", labelOf r), ("raw", .str r.raw)]) ∧
      Ordered (.obj [("label", labelOf r), ("raw", .str r.raw)]) := by
    intro r
    have hlabel : Plain 99 (labelOf r) ∧ Ordered (labelOf r) := by
      unfold labelOf
      split
      · exact ⟨.str _, .str _⟩
      · exact ⟨.null, .null⟩
    constructor
    · refine .obj ?_
      simp only [List.forall_mem_cons]
      exact ⟨hlabel.1, .str _, nofun⟩
    · refine .obj ?_ ?_
      · have hkeys : "label" < "raw" := by decide
        exact List.pairwise_pair.2 hkeys
      · simp only [List.forall_mem_cons]
        exact ⟨hlabel.2, .str _, nofun⟩
  obtain ⟨g, -, hg⟩ := List.mem_flatMap.1 hf
  unfold Finding.ofGroup at hg
  split at hg
  · cases hg
  · obtain ⟨r, -, rfl⟩ := List.mem_map.1 hg
    exact hnode r
  · obtain ⟨r, -, rfl⟩ := List.mem_map.1 hg
    exact hnode r
  · rw [List.mem_singleton.1 hg]
    exact ⟨.null, .null⟩

theorem Check.portable_of_run {respond : Responder} {clock : Clock} {request : CheckRequest}
    {tree : FileTree} {result : CheckResult}
    (hok : (run respond clock request tree).traced.outcome = .ok result) :
    result.report.Portable := by
  obtain ⟨settings, targets, invalid, scanned, -, -, -, -, rfl⟩ :=
    run_gives_iff.1 (gives_of_outcome hok)
  exact ⟨rfl, fun f hf => Finding.readable_data hf⟩

theorem Check.portable_failureReport (failure : Failure) (os : Option String) (now : Timestamp) :
    (failureReport failure os now).Portable := by
  refine ⟨rfl, fun f hf => ?_⟩
  rw [List.mem_singleton.1 hf]
  exact ⟨.null, .null⟩

/-! ## Rendering from the artifact -/

namespace CommandLine

/-- What was written to a file is its content. -/
theorem readText_of_writeFile {what path content : String} {tree tree' : FileTree}
    (h : (writeFile what path content).Gives tree () tree') :
    tree'.readText path = .ok content := by
  obtain ⟨_, mid, -, hwrite⟩ := gives_bind_iff.1 h
  obtain ⟨old, -, hread⟩ := FileTree.readAt_of_modifyOctets (gives_change_iff.1 hwrite)
  unfold FileTree.readText FileTree.readTextAt
  simp only [hread, Bind.bind, Except.bind, Octets.toText?_ofText]
  rfl

/-- Puts a summary into a file, or prints it. -/
def render (markdown : String) : Option String → Action Unit
  | some place => (writeFile "write text" place markdown).within "write markdown output"
  | none => print markdown

section Rendering

variable {path : String} {r : Report} (hr : r.Portable) {t : FileTree}
  (ht : t.readText path = .ok r.serialize)

include hr ht

theorem readReport_of_readText : readReport path t = .ok r := by
  have hread := Report.read_serialize hr
  unfold readReport
  rw [ht]
  -- The text itself must not be unfolded.
  generalize r.serialize = text at hread
  exact hread

/-- Where the report was read, only what comes after counts. -/
theorem look_readReport_bind {α : Type} (f : Report → Action α) :
    (look (fun t => .ofExcept (readReport path t)) >>= f) t = f r t := by
  show Action.bind (look fun t => .ofExcept (readReport path t)) f t = f r t
  simp [Action.bind, look, readReport_of_readText hr ht, Traced.ofExcept]

theorem runMarkdown_eq_render (output : Option String) :
    runMarkdown path output t = render r.view.markdown output t := by
  have hrender : runMarkdown path output t = _ := look_readReport_bind hr ht _
  rw [hrender]
  cases output <;> rfl

theorem runAnnotations_eq_print (max : Nat) :
    runAnnotations path max t =
      print (String.join ((r.view.cappedAnnotations max).map (· ++ "\n"))) t :=
  look_readReport_bind hr ht _

/-- A check prints the annotations that are rendered from its artifact, between two lines. -/
theorem printed_run_eq_annotations {console : Console} {d : Destinations}
    (htakes : console.Takes "" (Publish.linesOf d r)) (tree : FileTree) :
    (Publish.run console d r tree).printed =
      "::group::Parsing files\n" ++ (runAnnotations path d.maxAnnotations t).printed
        ++ "::endgroup::\n" ++ String.join ((Publish.failureLines r).map (· ++ "\n")) := by
  have hos : r.view.os = r.run.os := rfl
  rw [Publish.printed_run htakes, Publish.linesOf_eq, runAnnotations_eq_print hr ht,
    ReportView.cappedAnnotations_eq_map, hos]
  simp [textOf, print, String.append_assoc, String.join_append, String.join_cons]

end Rendering

/-! ## All of it -/

/-- Reports survive the artifact.  Whatever the texts, numbers, moments and data of a report are, it
is read back from its text as it was; this holds of every report of a check, of a check that failed
too; the text is in the file once the report was written; and as long as it is there, both commands
that render a file show what a check shows: the same summary, and on a console that takes all of
them the same annotations. -/
theorem report_survives :
    (∀ r : Report, r.Portable → Report.read r.serialize = .ok r) ∧
    (∀ respond clock request tree result,
      (Check.run respond clock request tree).traced.outcome = .ok result →
        result.report.Portable) ∧
    (∀ failure os now, (Check.failureReport failure os now).Portable) ∧
    (∀ (r : Report) path tree tree', (writeReport path r).Gives tree () tree' →
      tree'.readText path = .ok r.serialize) ∧
    ∀ (r : Report) path t, r.Portable → t.readText path = .ok r.serialize →
      readReport path t = .ok r ∧
      (∀ output, runMarkdown path output t = render r.view.markdown output t) ∧
      (∀ max, runAnnotations path max t =
        print (String.join ((r.view.cappedAnnotations max).map (· ++ "\n"))) t) ∧
      ∀ (console : Console) d tree, console.Takes "" (Publish.linesOf d r) →
        (Publish.run console d r tree).printed =
          "::group::Parsing files\n" ++ (runAnnotations path d.maxAnnotations t).printed
            ++ "::endgroup::\n" ++ String.join ((Publish.failureLines r).map (· ++ "\n")) := by
  refine ⟨fun r => Report.read_serialize, fun _ _ _ _ _ => Check.portable_of_run,
    Check.portable_failureReport, fun _ _ _ _ => readText_of_writeFile, ?_⟩
  intro r path t hr htext
  exact ⟨readReport_of_readText hr htext, runMarkdown_eq_render hr htext,
    runAnnotations_eq_print hr htext, fun _ _ tree htakes =>
      printed_run_eq_annotations hr htext htakes tree⟩

/-- A report with quotes, control characters and characters beyond the first plane in its texts, a
moment with a fraction and a negative offset, some fields absent, and nested data. -/
theorem report_survives_odd_texts :
    let start : Timestamp := ⟨9999, 12, 31, 23, 59, 59, 120000, -1, by decide⟩
    let finding : Finding := ⟨.warning, "c\x00", "\"\\", "a\n\r\t\x08\x0c\x1f",
      some ⟨⟨"é,😀:"⟩, some 7, none, none, some 0xFFFFFFFF⟩, none, some "",
      .obj [("", .arr [.null, .arr [], .obj []]), ("k", .num (.negative 5 (by decide)))]⟩
    let r : Report := ⟨Report.schemaId, ⟨"", "/"⟩, ⟨start, none, some 0xFFFFFFFFFFFFFFFF, some "%"⟩,
      ⟨.warn, ⟨0, 1, 0⟩, []⟩, [finding, { finding with location := none, data := .null }],
      ⟨"p", "", 1, 2, 3, [⟨"\x7f"⟩], []⟩⟩
    let tree : FileTree := ⟨.directory [(Octets.ofText "d", .emptyDirectory)], []⟩
    r.Portable ∧ ∃ tree', (writeReport "/r" r).Gives tree () tree' ∧
      Report.read r.serialize = .ok r ∧ readReport "/r" tree' = .ok r := by
  intro start finding r tree
  have hdata : Plain 100 finding.data ∧ Ordered finding.data := by
    constructor
    · refine .obj ?_
      simp only [List.forall_mem_cons]
      refine ⟨.arr ?_, .num (fun _ h => by cases h), List.forall_mem_nil _⟩
      simp only [List.forall_mem_cons]
      exact ⟨.null, .arr (List.forall_mem_nil _), .obj (List.forall_mem_nil _),
        List.forall_mem_nil _⟩
    · have hkeys : "" < "k" := by decide
      refine .obj (List.pairwise_pair.2 hkeys) ?_
      simp only [List.forall_mem_cons]
      refine ⟨.arr ?_, .num _, List.forall_mem_nil _⟩
      simp only [List.forall_mem_cons]
      exact ⟨.null, .arr (List.forall_mem_nil _), .obj .nil (List.forall_mem_nil _),
        List.forall_mem_nil _⟩
  have hr : r.Portable := by
    refine ⟨rfl, ?_⟩
    simp only [r, List.forall_mem_cons]
    exact ⟨hdata, ⟨.null, .null⟩, List.forall_mem_nil _⟩
  have hname : FileTree.IsName "/r" (Octets.ofText "r") := by decide +kernel
  have hplace := tree.startOf_eq_nil "/r" (by decide +kernel)
  have hgives : (writeReport "/r" r).Gives tree () _ :=
    hname.writeFile_gives rfl (hname.write_eq_put hplace rfl (by decide +kernel) _) _
  obtain ⟨hread, -, -, hwritten, hrendered⟩ := report_survives
  have htext := hwritten r "/r" tree _ hgives
  exact ⟨hr, _, hgives, hread r hr, (hrendered r "/r" _ hr htext).1⟩

end CommandLine

end ParseAudit
