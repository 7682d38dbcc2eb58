import ParseAudit.Proofs.Printing
import ParseAudit.Publish
/-!
# The steps of publishing

Publishing writes its lines first, then appends to the files that are named, one after the other,
and at last has the console send on what was written.

* `writes_announce`: the lines that are written;
* `run_gives_iff`: the trees on the way;
* `printed_run`, `printed_run_prefix_textOf`: what is printed, whatever becomes of the files.
-/

namespace ParseAudit.Publish

open ParseAudit.Action

variable {console : Console} {d : Destinations} {r : Report} {tree tree' : FileTree}

/-- Something that is done with a path, if there is one. -/
def withPath (path : Option String) (f : String → Action Unit) : Action Unit :=
  match path with
  | some path => f path
  | none => Pure.pure ()

/-! ## The lines -/

/-- The lines that publishing writes. -/
def linesOf (d : Destinations) (r : Report) : List String :=
  [WorkflowCommand.groupStart "Parsing files"] ++ (r.view.cappedAnnotations d.maxAnnotations ++
    ([WorkflowCommand.groupEnd] ++ failureSummary r))

/-- What is written behind the annotations. -/
def conclude (console : Console) (r : Report) (written : String) : Action String := do
  let written ← writeLines console "write group end" written [WorkflowCommand.groupEnd]
  writeLines console "write failure summary" written (failureSummary r)

theorem announce_eq (console : Console) (d : Destinations) (r : Report) :
    announce console d r =
      writeLines console "write group start" "" [WorkflowCommand.groupStart "Parsing files"] >>=
        fun written => writeLines console "write annotation" written
            (r.view.cappedAnnotations d.maxAnnotations) >>= fun written =>
          if r.findings.length - (r.view.cappedAnnotations d.maxAnnotations).length > 0 then
            log .info .publish
              (Text.natural (r.findings.length - (r.view.cappedAnnotations d.maxAnnotations).length)
                ++ " annotation(s) omitted (max_annotations = " ++ Text.natural d.maxAnnotations
                ++ ")") >>= fun _ => conclude console r written
          else conclude console r written :=
  rfl

/-- The lines are written up to the first one that the console refuses. -/
theorem writes_announce (console : Console) (d : Destinations) (r : Report) :
    (announce console d r).Writes console "" (linesOf d r) := by
  rw [announce_eq]
  refine (writes_writeLines console _ "" _).bind ((writes_writeLines console _ _ _).bind ?_)
  apply Writes.ite_log_bind
  exact (writes_writeLines console _ _ _).bind (writes_writeLines console _ _ _)

/-! ## Everything -/

theorem run_eq (console : Console) (d : Destinations) (r : Report) :
    run console d r =
      announce console d r >>= fun written =>
        withPath d.jobOutput (appendJobOutput r) >>= fun _ =>
          withPath d.stepSummary (appendStepSummary r) >>= fun _ =>
            flush console "flush stdout" written := by
  unfold run withPath
  cases d.jobOutput <;> cases d.stepSummary <;> rfl

/-- Only appending changes the tree, and the console has to take everything. -/
theorem run_gives_iff :
    (run console d r).Gives tree () tree' ↔
      console.Takes "" (linesOf d r) ∧ console.flushError? (textOf (linesOf d r)) = none ∧
        ∃ mid, (withPath d.jobOutput (appendJobOutput r)).Gives tree () mid ∧
          (withPath d.stepSummary (appendStepSummary r)).Gives mid () tree' := by
  rw [run_eq, (writes_announce console d r).gives_bind_iff, String.empty_append]
  simp only [gives_bind_iff, gives_flush_iff]
  refine and_congr_right fun _ => ?_
  constructor
  · rintro ⟨_, mid, hjob, _, _, hsummary, hflush, rfl⟩
    exact ⟨hflush, mid, hjob, hsummary⟩
  · rintro ⟨hflush, mid, hjob, hsummary⟩
    exact ⟨(), mid, hjob, (), tree', hsummary, hflush, rfl⟩

/-- Nothing is appended once the console has refused a line. -/
theorem run_of_not_takes (h : ¬console.Takes "" (linesOf d r)) (tree : FileTree) :
    (∃ e, (run console d r).Fails tree e) ∧ (run console d r tree).tree = tree := by
  obtain ⟨⟨e, hfails⟩, hleft, -⟩ := (writes_announce console d r).refused h tree
  rw [run_eq]
  exact ⟨⟨e, fails_bind_iff.2 (.inl hfails)⟩, (bind_of_error hfails _).2.trans hleft⟩

/-! ## What is printed -/

theorem silent_append (path text : String) : (append path text).Silent := silent_change _ _

theorem silent_withPath {path : Option String} {f : String → Action Unit}
    (hf : ∀ path, (f path).Silent) : (withPath path f).Silent := by
  cases path with
  | none => exact silent_pure ()
  | some path => exact hf path

theorem silent_appendJobOutput (r : Report) (path : String) : (appendJobOutput r path).Silent :=
  ((silent_append _ _).within _).bind fun _ => silent_log _ _ _

theorem silent_appendStepSummary (r : Report) (path : String) :
    (appendStepSummary r path).Silent :=
  ((silent_append _ _).within _).bind fun _ => silent_log _ _ _

/-- Nothing is printed but the lines. -/
theorem printed_run_eq (console : Console) (d : Destinations) (r : Report) (tree : FileTree) :
    (run console d r tree).printed = (announce console d r tree).printed := by
  rw [run_eq]
  refine printed_bind_of_silent (fun written => ?_) _ tree
  exact (silent_withPath (silent_appendJobOutput r)).bind fun _ =>
    (silent_withPath (silent_appendStepSummary r)).bind fun _ => silent_flush _ _ _

/-- A console that takes all the lines has them, whether the files can be appended to or not. -/
theorem printed_run (h : console.Takes "" (linesOf d r)) (tree : FileTree) :
    (run console d r tree).printed = textOf (linesOf d r) := by
  rw [printed_run_eq, ((writes_announce console d r).taken h tree).2]

/-- Any console has a part of them. -/
theorem printed_run_prefix_textOf (console : Console) (d : Destinations) (r : Report)
    (tree : FileTree) :
    (run console d r tree).printed.toList <+: (textOf (linesOf d r)).toList := by
  rw [printed_run_eq]
  exact (writes_announce console d r).printed_prefix_textOf tree

end ParseAudit.Publish
