import ParseAudit.Proofs.Audit.Groups
import ParseAudit.Proofs.Invocation.Exchange
/-!
# Records of calls

What the records of all calls say of a file is what the call says that the file was handed over in.

* `HasError`: that call reports an error in the file;
* `mem_files_exchanges`, `anyError_exchanges_iff`: the records of all calls, file by file.
-/

namespace ParseAudit.Invocation

open Chars Line Scan

variable {respond : Responder} {settings : Settings} {directory : String}

/-- In the output of a call, a line that belongs to the file carries an error node. -/
def Exchange.ReportsError (x : Exchange) (base : String) (t : RepoPath) : Prop :=
  ∃ line ∈ lines x.result.stdout.toList, ∃ before after,
    Attributed (· ∈ x.run) base (trim line) before after ∧ fileOf base before = t ∧
    ∃ region, IsErrorNode (trim after) region

/-- The call that a file was handed over in reports an error in it. -/
def HasError (base : String) (calls : List Exchange) (t : RepoPath) : Prop :=
  ∃ x ∈ calls, t ∈ x.run ∧ x.ReportsError base t

/-! ## From records to calls -/

theorem mem_files_of_reads {x : Exchange} {out : ScanOutput} (h : Reads settings directory x out)
    {t : RepoPath} : (∃ r ∈ out.records, r.file = t) ↔ t ∈ x.run :=
  (mem_files_batch (scanRun_eq_ok_iff.1 h)).trans FileSet.mem_ofList

theorem hasError_of_reads {x : Exchange} {out : ScanOutput} (h : Reads settings directory x out)
    {t : RepoPath} :
    (∃ r ∈ out.records, r.file = t ∧ r.hasError = true) ↔ x.ReportsError directory t := by
  rw [hasError_batch_iff (scanRun_eq_ok_iff.1 h)]
  unfold Exchange.ReportsError
  simp only [attributed_congr fun p => FileSet.mem_ofList]

/-- The files of the records are the files of the calls. -/
theorem mem_files_exchanges {calls : List Exchange} {outs : List ScanOutput}
    (h : List.Forall₂ (Reads settings directory) calls outs) {t : RepoPath} :
    t ∈ filesOf (ScanOutput.concat outs).records ↔ t ∈ (calls.map Exchange.run).flatten := by
  rw [mem_filesOf]
  induction h with
  | nil => simp [ScanOutput.concat]
  | @cons x out calls outs hread hrest ih =>
    rw [ScanOutput.concat_cons, ScanOutput.append_records, List.map_cons, List.flatten_cons,
      List.mem_append, ← ih, ← mem_files_of_reads hread]
    simp only [List.mem_append, or_and_right, exists_or]

/-- A file has a record with an error exactly when the call that it was handed over in reports an
error in it. -/
theorem anyError_exchanges_iff {calls : List Exchange} {outs : List ScanOutput}
    (h : List.Forall₂ (Reads settings directory) calls outs) {t : RepoPath} :
    anyError (ScanOutput.concat outs).records t = true ↔ HasError directory calls t := by
  rw [anyError_iff]
  induction h with
  | nil => simp [ScanOutput.concat, HasError]
  | @cons x out calls outs hread hrest ih =>
    have hfirst : x.ReportsError directory t ↔ t ∈ x.run ∧ x.ReportsError directory t := by
      constructor
      · intro herror
        refine ⟨?_, herror⟩
        obtain ⟨line, -, before, after, hatt, rfl, -⟩ := herror
        exact hatt.mem
      · exact fun herror => herror.2
    have hcons : HasError directory (x :: calls) t ↔
        (t ∈ x.run ∧ x.ReportsError directory t) ∨ HasError directory calls t := by
      unfold HasError
      rw [List.exists_mem_cons_iff]
    rw [hcons, ← hfirst, ← ih, ← hasError_of_reads hread, ScanOutput.concat_cons,
      ScanOutput.append_records]
    simp only [List.mem_append, or_and_right, exists_or]

end ParseAudit.Invocation
