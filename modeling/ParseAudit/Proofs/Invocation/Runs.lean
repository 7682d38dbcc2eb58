import ParseAudit.Invocation.Plan
import ParseAudit.Proofs.FileSet
/-!
# Runs of files

However the files are cut into runs, the runs one after another are the files, and no run is empty.

* `flatten_runsFor`, `ne_nil_of_mem_runsFor`: the runs of both modes;
* `sorted_of_mem_runsFor`: a run is in order, so that it stands for a set of its own.
-/

namespace ParseAudit

namespace Invocation

/-! ## Runs in batch mode -/

/-- Cutting loses no file and changes no order. -/
theorem flatten_runsFrom (fixed budget used : Nat) (run files : List RepoPath) :
    (runsFrom fixed budget used run files).flatten = run.reverse ++ files := by
  induction files generalizing used run with
  | nil =>
    unfold runsFrom
    cases run with
    | nil => rfl
    | cons file run => simp
  | cons file files ih =>
    unfold runsFrom
    dsimp only
    split
    · rw [List.flatten_cons, ih]
      rfl
    · rw [ih, List.reverse_cons, List.append_assoc]
      rfl

/-- A run is cut off only when it has a file. -/
theorem ne_nil_of_mem_runsFrom {fixed budget used : Nat} {run files part : List RepoPath}
    (h : part ∈ runsFrom fixed budget used run files) : part ≠ [] := by
  induction files generalizing used run with
  | nil =>
    unfold runsFrom at h
    cases run with
    | nil => cases h
    | cons file run =>
      have hpart : part = (file :: run).reverse := by simpa using h
      rw [hpart]
      simp
  | cons file files ih =>
    unfold runsFrom at h
    dsimp only at h
    split at h
    · next hcut =>
      rcases List.mem_cons.1 h with rfl | h
      · have hrun : run ≠ [] := by
          intro hnil
          rw [hnil] at hcut
          simp at hcut
        simpa using hrun
      · exact ih h
    · exact ih h

/-! ## Runs in both modes -/

/-- The runs one after another are the files. -/
theorem flatten_runsFor (settings : Settings) (files : FileSet) :
    (runsFor settings files).flatten = files.toList := by
  unfold runsFor
  cases settings.mode with
  | batch =>
    show (runsFrom _ _ _ [] files.toList).flatten = _
    rw [flatten_runsFrom]
    rfl
  | perFile =>
    show (files.toList.map fun file => [file]).flatten = _
    induction files.toList with
    | nil => rfl
    | cons file files ih =>
      rw [List.map_cons, List.flatten_cons, ih]
      rfl

theorem ne_nil_of_mem_runsFor {settings : Settings} {files : FileSet} {run : List RepoPath}
    (h : run ∈ runsFor settings files) : run ≠ [] := by
  unfold runsFor at h
  cases hmode : settings.mode with
  | batch =>
    rw [hmode] at h
    exact ne_nil_of_mem_runsFrom h
  | perFile =>
    rw [hmode] at h
    obtain ⟨file, -, rfl⟩ := List.mem_map.1 h
    exact List.cons_ne_nil file []

/-- The files of a run are files to check. -/
theorem mem_of_mem_run {settings : Settings} {files : FileSet} {run : List RepoPath}
    (h : run ∈ runsFor settings files) {file : RepoPath} (hfile : file ∈ run) : file ∈ files := by
  rw [FileSet.mem_def, ← flatten_runsFor settings files]
  exact List.mem_flatten.2 ⟨run, h, hfile⟩

/-- The files of a run are in order. -/
theorem sorted_of_mem_runsFor {settings : Settings} {files : FileSet} {run : List RepoPath}
    (h : run ∈ runsFor settings files) : run.Pairwise (· < ·) := by
  have hsorted := files.sorted
  rw [← flatten_runsFor settings files, List.pairwise_flatten] at hsorted
  exact hsorted.1 run h

end Invocation

end ParseAudit
