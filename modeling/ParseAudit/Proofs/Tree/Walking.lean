import ParseAudit.Proofs.Tree.Following
/-!
# What a walk comes upon

A walk beneath a node comes upon the files and links at the end of the names on the way, and enters
directories alone.  Nothing named `.git` is on any way.

* `FileNode.mem_leaves_iff`: the files and links beneath a node are those that a walk reaches.
-/

namespace ParseAudit

namespace FileNode

/-- A walk from a node reaches a file or a link by the names on the way. -/
inductive Reaches : FileNode → List FileName → FileNode → Prop where
  | here {node : FileNode} (hleaf : node.isDirectory = false) : Reaches node [] node
  | child {children : Children} {name : FileName} {child leaf : FileNode} {names : List FileName}
      (hchild : (name, child) ∈ children) (hname : name ≠ skippedName)
      (hrest : Reaches child names leaf) : Reaches (.directory children) (name :: names) leaf

theorem mem_childLeaves_iff {children : Children} {names : List FileName} {leaf : FileNode} :
    (names, leaf) ∈ childLeaves children ↔ ∃ name child rest, (name, child) ∈ children ∧
      name ≠ skippedName ∧ names = name :: rest ∧ (rest, leaf) ∈ child.leaves := by
  induction children with
  | nil => simp [childLeaves]
  | cons entry children ih =>
    obtain ⟨name, child⟩ := entry
    unfold childLeaves
    split
    · next hskipped =>
      rw [ih]
      constructor
      · rintro ⟨n, c, rest, hmem, hrest⟩
        exact ⟨n, c, rest, List.mem_cons_of_mem _ hmem, hrest⟩
      · rintro ⟨n, c, rest, hmem, hname, hrest⟩
        rcases List.mem_cons.1 hmem with heq | hmem
        · cases heq
          exact absurd hskipped hname
        · exact ⟨n, c, rest, hmem, hname, hrest⟩
    · next hname =>
      rw [List.mem_append, List.mem_map, ih]
      constructor
      · rintro (⟨⟨rest, node⟩, hmem, heq⟩ | ⟨n, c, rest, hmem, hrest⟩)
        · cases heq
          exact ⟨name, child, rest, List.mem_cons_self, hname, rfl, hmem⟩
        · exact ⟨n, c, rest, List.mem_cons_of_mem _ hmem, hrest⟩
      · rintro ⟨n, c, rest, hmem, hn, rfl, hrest⟩
        rcases List.mem_cons.1 hmem with heq | hmem
        · cases heq
          exact .inl ⟨(rest, leaf), hrest, rfl⟩
        · exact .inr ⟨n, c, rest, hmem, hn, rfl, hrest⟩

theorem leaves_of_not_directory {node : FileNode} (h : node.isDirectory = false) :
    node.leaves = [([], node)] := by
  cases node with
  | file content executable => rw [leaves]; nofun
  | link target => rw [leaves]; nofun
  | directory children => cases h

/-- The files and links at and beneath a node are those that a walk reaches. -/
theorem mem_leaves_iff {node : FileNode} {names : List FileName} {leaf : FileNode} :
    (names, leaf) ∈ node.leaves ↔ node.Reaches names leaf := by
  induction names generalizing node with
  | nil =>
    cases hdirectory : node.isDirectory with
    | false =>
      rw [leaves_of_not_directory hdirectory, List.mem_singleton]
      constructor
      · rintro ⟨⟩
        exact .here hdirectory
      · rintro ⟨⟩
        rfl
    | true =>
      obtain ⟨children, rfl⟩ := isDirectory_iff.1 hdirectory
      rw [leaves, mem_childLeaves_iff]
      refine iff_of_false ?_ ?_
      · rintro ⟨_, _, _, _, _, heq, _⟩
        cases heq
      · rintro (hleaf | _)
        cases hleaf
  | cons name names ih =>
    cases hdirectory : node.isDirectory with
    | false =>
      rw [leaves_of_not_directory hdirectory, List.mem_singleton]
      refine iff_of_false nofun ?_
      rintro (_ | _)
      cases hdirectory
    | true =>
      obtain ⟨children, rfl⟩ := isDirectory_iff.1 hdirectory
      rw [leaves, mem_childLeaves_iff]
      constructor
      · rintro ⟨_, child, _, hmem, hname, ⟨⟩, hrest⟩
        exact .child hmem hname (ih.1 hrest)
      · rintro (_ | ⟨hmem, hname, hrest⟩)
        exact ⟨name, _, names, hmem, hname, rfl, ih.2 hrest⟩

end FileNode

end ParseAudit
