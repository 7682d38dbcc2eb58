import ParseAudit.FileSet
import Mathlib.Data.List.Sort
/-!
# Sets of files and their lists

A set of files and the list of its members in order stand for each other.

* `ofList_eq_self`, `eq_ofList`: the set that is built from a list in order;
* `toList_eq_iff`: sets with the same members list them in the same way.
-/

namespace ParseAudit.FileSet

/-- A path that comes before all others is put in front. -/
theorem insertSorted_of_lt {p : RepoPath} {l : List RepoPath} (h : ∀ q ∈ l, p < q) :
    insertSorted p l = p :: l := by
  cases l with
  | nil => rfl
  | cons q qs =>
    unfold insertSorted
    rw [if_pos (h q List.mem_cons_self)]

/-- Paths that are in order stay as they are. -/
theorem sortPaths_eq_self {l : List RepoPath} (h : l.Pairwise (· < ·)) : sortPaths l = l := by
  induction l with
  | nil => rfl
  | cons p l ih =>
    obtain ⟨hlt, hl⟩ := List.pairwise_cons.1 h
    show insertSorted p (sortPaths l) = p :: l
    rw [ih hl, insertSorted_of_lt hlt]

/-- A set built from files in order lists them in that order. -/
theorem ofList_eq_self {l : List RepoPath} (h : l.Pairwise (· < ·)) : (ofList l).toList = l :=
  sortPaths_eq_self h

/-- A set is built from what it lists. -/
theorem eq_ofList {s : FileSet} {l : List RepoPath} (h : s.toList = l) : s = ofList l := by
  obtain ⟨files, hsorted⟩ := s
  subst h
  rw [FileSet.mk.injEq]
  exact (sortPaths_eq_self hsorted).symm

/-- No file is listed twice. -/
theorem nodup_toList (s : FileSet) : s.toList.Nodup := by
  refine s.sorted.imp ?_
  intro a b hlt heq
  exact RepoPath.lt_irrefl b (heq ▸ hlt)

/-- Sets with the same members list them in the same way. -/
theorem toList_eq_iff {s s' : FileSet} : s.toList = s'.toList ↔ ∀ p, p ∈ s ↔ p ∈ s' := by
  have hirrefl : Std.Irrefl fun p q : RepoPath => p < q := ⟨RepoPath.lt_irrefl⟩
  have hantisymm : Std.Antisymm fun p q : RepoPath => p < q :=
    ⟨fun p q hpq hqp => absurd (RepoPath.lt_trans hpq hqp) (RepoPath.lt_irrefl p)⟩
  constructor
  · intro h p
    rw [mem_def, mem_def, h]
  · exact fun h => s.sorted.eq_of_mem_iff s'.sorted h

/-- Sets with the same members are the same. -/
theorem ext {s s' : FileSet} (h : ∀ p, p ∈ s ↔ p ∈ s') : s = s' := by
  rw [eq_ofList (toList_eq_iff.2 h), ← eq_ofList rfl]

/-- The members of a set that pass a test. -/
def filter (q : RepoPath → Bool) (s : FileSet) : FileSet where
  toList := s.toList.filter q
  sorted := s.sorted.filter q

theorem mem_filter {q : RepoPath → Bool} {s : FileSet} {p : RepoPath} :
    p ∈ s.filter q ↔ p ∈ s ∧ q p = true :=
  List.mem_filter

end ParseAudit.FileSet
