import ParseAudit.Proofs.Invocation.Runs
import Mathlib.Data.List.Chain
/-!
# Runs and the length of a command line

In batch mode a command line with several files stays within the budget, and a run ends only where
the next file would not fit.

* `lineCost`: what the words of a command line cost together;
* `Filled`: runs that are as long as the budget lets them be;
* `filled_runs`, `length_of_perFile`: the runs of both modes.
-/

namespace ParseAudit.Invocation

/-! ## Costs -/

/-- What a command line costs: the octets of its words, and three more for each word. -/
def lineCost : List String → Nat
  | [] => 0
  | word :: words => word.utf8ByteSize + 3 + lineCost words

theorem lineCost_cons (word : String) (words : List String) :
    lineCost (word :: words) = word.utf8ByteSize + 3 + lineCost words := rfl

theorem lineCost_append (words words' : List String) :
    lineCost (words ++ words') = lineCost words + lineCost words' := by
  induction words with
  | nil => exact (Nat.zero_add _).symm
  | cons word words ih =>
    rw [List.cons_append, lineCost_cons, lineCost_cons, ih, ← Nat.add_assoc]

theorem lineCost_reverse (words : List String) : lineCost words.reverse = lineCost words := by
  induction words with
  | nil => rfl
  | cons word words ih =>
    rw [List.reverse_cons, lineCost_append, ih, Nat.add_comm]
    rfl

theorem fixedCost_eq (program : String) (args : List String) :
    fixedCost program args = lineCost (program :: args) := by
  have hargs : ∀ before, (args.map argumentCost).foldl (· + ·) before = before + lineCost args := by
    induction args with
    | nil => exact fun before => rfl
    | cons arg args ih =>
      intro before
      rw [List.map_cons, List.foldl_cons, ih, lineCost_cons, ← Nat.add_assoc]
      rfl
  unfold fixedCost
  rw [hargs, Nat.zero_add]
  rfl

/-- What the command line for a run of files costs. -/
def runCost (program : String) (args : List String) (run : List RepoPath) : Nat :=
  lineCost (program :: args ++ run.map RepoPath.text)

/-- Before any file, a command line costs its fixed part. -/
theorem runCost_nil (program : String) (args : List String) :
    runCost program args [] = fixedCost program args := by
  unfold runCost
  rw [fixedCost_eq, List.map_nil, List.append_nil]

theorem runCost_cons (program : String) (args : List String) (file : RepoPath)
    (run : List RepoPath) :
    runCost program args (file :: run) = runCost program args run + argumentCost file.text := by
  unfold runCost argumentCost
  rw [List.map_cons, lineCost_append, lineCost_append, lineCost_cons file.text]
  omega

theorem runCost_reverse (program : String) (args : List String) (run : List RepoPath) :
    runCost program args run.reverse = runCost program args run := by
  unfold runCost
  rw [List.map_reverse, lineCost_append, lineCost_append, lineCost_reverse]

/-! ## Filling -/

/-- Runs that keep to a budget without wasting it: a run of several files costs no more, and with
the file that the next run starts with, it would cost more. -/
structure Filled (cost : List RepoPath → Nat) (budget : Nat) (runs : List (List RepoPath)) :
    Prop where
  fits : ∀ run ∈ runs, 2 ≤ run.length → cost run ≤ budget
  full : runs.IsChain fun run next =>
    ∀ file ∈ next.head?, budget < cost run + (file.text.utf8ByteSize + 3)

theorem filled_nil {cost : List RepoPath → Nat} {budget : Nat} : Filled cost budget [] :=
  ⟨fun _ h => (List.not_mem_nil h).elim, List.isChain_nil⟩

/-- A run may be put in front of runs that start with a file that did not fit into it. -/
theorem Filled.cons {cost : List RepoPath → Nat} {budget : Nat} {run : List RepoPath}
    {runs : List (List RepoPath)} (hrest : Filled cost budget runs)
    (hfits : 2 ≤ run.length → cost run ≤ budget)
    (hfull : ∀ next ∈ runs.head?, ∀ file ∈ next.head?,
      budget < cost run + (file.text.utf8ByteSize + 3)) :
    Filled cost budget (run :: runs) := by
  constructor
  · intro part hpart
    rcases List.mem_cons.1 hpart with rfl | hpart
    · exact hfits
    · exact hrest.fits part hpart
  · exact List.isChain_cons.2 ⟨hfull, hrest.full⟩

/-- The first of some runs starts with the first of their files. -/
theorem head?_of_mem_head? {runs : List (List RepoPath)} {next files : List RepoPath}
    {file : RepoPath} (hflatten : runs.flatten = file :: files) (hne : ∀ run ∈ runs, run ≠ [])
    (h : next ∈ runs.head?) : next.head? = some file := by
  obtain ⟨rest, rfl⟩ := List.head?_eq_some_iff.1 h
  obtain ⟨first, more, rfl⟩ := List.exists_cons_of_ne_nil (hne next List.mem_cons_self)
  cases hflatten
  rfl

/-- Cutting fills the runs, as long as the run that is being filled is within the budget, or has one
file only. -/
theorem filled_runsFrom {program : String} {args : List String} {budget : Nat}
    {run files : List RepoPath} (hrun : 2 ≤ run.length → runCost program args run ≤ budget) :
    Filled (runCost program args) budget
      (runsFrom (fixedCost program args) budget (runCost program args run) run files) := by
  have hreverse : 2 ≤ run.reverse.length → runCost program args run.reverse ≤ budget := by
    rwa [List.length_reverse, runCost_reverse]
  induction files generalizing run with
  | nil =>
    unfold runsFrom
    split
    · exact filled_nil
    · exact filled_nil.cons hreverse (by simp)
  | cons file files ih =>
    unfold runsFrom
    dsimp only
    rw [← runCost_nil, ← runCost_cons, ← runCost_cons, runCost_nil]
    split
    · next hcut =>
      obtain ⟨-, hover⟩ : run ≠ [] ∧ budget < runCost program args (file :: run) := by
        simpa using hcut
      -- The run is cut off, and a run with one file takes its place.
      refine Filled.cons (ih (by simp) (by simp)) hreverse ?_
      intro next hnext first hfirst
      have hhead : next.head? = some file :=
        head?_of_mem_head? (flatten_runsFrom _ _ _ [file] files)
          (fun _ => ne_nil_of_mem_runsFrom) hnext
      obtain rfl : file = first := by
        rw [hhead] at hfirst
        exact Option.some.inj hfirst
      rw [runCost_reverse]
      rwa [runCost_cons] at hover
    · next hfits =>
      have hmore : 2 ≤ (file :: run).length → runCost program args (file :: run) ≤ budget := by
        intro hlength
        have hne : run ≠ [] := by
          rintro rfl
          simp at hlength
        simpa [hne] using hfits
      refine ih hmore ?_
      rwa [List.length_reverse, runCost_reverse]

/-! ## The runs of both modes -/

theorem filled_runs (program : String) (args : List String) (files : FileSet) :
    Filled (runCost program args) commandLineBudget (runs program args files) := by
  have h : Filled (runCost program args) commandLineBudget (runsFrom (fixedCost program args)
      commandLineBudget (runCost program args []) [] files.toList) := filled_runsFrom (by simp)
  rwa [runCost_nil] at h

theorem length_of_perFile {settings : Settings} (hmode : settings.mode = .perFile)
    {files : FileSet} {run : List RepoPath} (h : run ∈ runsFor settings files) :
    run.length = 1 := by
  unfold runsFor at h
  rw [hmode] at h
  obtain ⟨file, -, rfl⟩ := List.mem_map.1 h
  rfl

end ParseAudit.Invocation
