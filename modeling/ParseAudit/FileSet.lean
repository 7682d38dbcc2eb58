import ParseAudit.RepoPath
/-!
# Sets of files

A `FileSet` holds paths in increasing order of their text, each once; the order is part of the
type.  `mem_ofList` says that building a set from a list keeps exactly its members.
-/

namespace ParseAudit

/-- A finite set of paths, listed in increasing order. -/
structure FileSet where
  toList : List RepoPath
  sorted : toList.Pairwise (· < ·)

namespace RepoPath

theorem lt_trans {a b c : RepoPath} (hab : a < b) (hbc : b < c) : a < c :=
  String.lt_trans hab hbc

theorem lt_irrefl (a : RepoPath) : ¬a < a :=
  String.lt_irrefl a.text

theorem lt_of_not_lt_of_ne {a b : RepoPath} (h : ¬a < b) (hne : a ≠ b) : b < a := by
  have hle : b.text ≤ a.text := String.not_lt.1 h
  refine String.not_le.1 fun hle' => hne ?_
  have : a.text = b.text := String.le_antisymm hle' hle
  cases a; cases b; simp_all

end RepoPath

namespace FileSet

/-- Puts a path in its place; a path that is there already is not added. -/
def insertSorted (p : RepoPath) : List RepoPath → List RepoPath
  | [] => [p]
  | q :: qs =>
    if p < q then p :: q :: qs
    else if p = q then q :: qs
    else q :: insertSorted p qs

@[simp] theorem mem_insertSorted {p r : RepoPath} {l : List RepoPath} :
    r ∈ insertSorted p l ↔ r = p ∨ r ∈ l := by
  induction l with
  | nil => simp [insertSorted]
  | cons q qs ih =>
    unfold insertSorted
    split
    · simp
    · split
      · next h => subst h; simp
      · simp only [List.mem_cons, ih]; grind

theorem sorted_insertSorted {p : RepoPath} {l : List RepoPath} (h : l.Pairwise (· < ·)) :
    (insertSorted p l).Pairwise (· < ·) := by
  induction l with
  | nil => simp [insertSorted]
  | cons q qs ih =>
    have hq := List.pairwise_cons.1 h
    unfold insertSorted
    split
    · next hpq =>
      refine List.pairwise_cons.2 ⟨fun r hr => ?_, h⟩
      rcases List.mem_cons.1 hr with rfl | hr
      · exact hpq
      · exact RepoPath.lt_trans hpq (hq.1 r hr)
    · next hpq =>
      split
      · exact h
      · next hne =>
        refine List.pairwise_cons.2 ⟨fun r hr => ?_, ih hq.2⟩
        rcases mem_insertSorted.1 hr with rfl | hr
        · exact RepoPath.lt_of_not_lt_of_ne hpq hne
        · exact hq.1 r hr

/-- The paths of a list, in order and each once. -/
def sortPaths (l : List RepoPath) : List RepoPath := l.foldr insertSorted []

/-- The set without a member. -/
def empty : FileSet := ⟨[], List.Pairwise.nil⟩

/-- The set of the paths in a list. -/
def ofList (l : List RepoPath) : FileSet where
  toList := sortPaths l
  sorted := by
    induction l with
    | nil => exact List.Pairwise.nil
    | cons p l ih => exact sorted_insertSorted ih

instance : Membership RepoPath FileSet := ⟨fun s p => p ∈ s.toList⟩

instance (p : RepoPath) (s : FileSet) : Decidable (p ∈ s) :=
  inferInstanceAs (Decidable (p ∈ s.toList))

/-- The number of members. -/
def size (s : FileSet) : Nat := s.toList.length

/-- Whether a set has no member. -/
def isEmpty (s : FileSet) : Bool := s.toList.isEmpty

/-- Whether a path is a member. -/
def contains (s : FileSet) (p : RepoPath) : Bool := decide (p ∈ s)

theorem mem_def {p : RepoPath} {s : FileSet} : p ∈ s ↔ p ∈ s.toList := Iff.rfl

/-- A set built from a list has exactly the list's members. -/
@[simp] theorem mem_ofList {p : RepoPath} {l : List RepoPath} : p ∈ ofList l ↔ p ∈ l := by
  simp only [mem_def, ofList, sortPaths]
  induction l with
  | nil => simp
  | cons q l ih => simp [ih]

@[simp] theorem contains_iff {p : RepoPath} {s : FileSet} : s.contains p = true ↔ p ∈ s := by
  simp [contains]

end FileSet

end ParseAudit
