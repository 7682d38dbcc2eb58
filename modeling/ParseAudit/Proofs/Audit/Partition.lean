import ParseAudit.Proofs.Audit.Groups
/-!
# Grouping as a stable partition

Every figure, finding and verdict of an audit is read off the groups of its records.  The groups
divide the records by their files: no record changes its group or its order, and the index of places
stays in step with the groups while they grow.

* `FileGroup.some_decisive`: the record that decides is there, since a group has a first record;
* `Grouping.places_ofRecords`: the index has the place of every file, counted in distinct files;
* `Grouping.stablePartition_ofRecords`: all that the groups and the index say of the records.
-/

namespace ParseAudit

namespace FileGroup

/-- The first error-bearing record of a group decides, or else its first record. -/
theorem some_decisive (g : FileGroup) :
    some g.decisive = (g.records.find? Record.hasError).or g.records.head? := by
  unfold decisive errors
  rw [List.headD_eq_head?_getD, List.head?_filter]
  exact Option.or_some.symm

/-- In terms of all records, the first error-bearing record of a file decides, or else the first
record of the file. -/
theorem some_decisive_of_mem {records : List Record} {g : FileGroup} (hg : g ∈ ofRecords records) :
    some g.decisive =
      (records.find? fun r => decide (r.file = g.file ∧ r.hasError = true)).or
        (records.find? fun r => decide (r.file = g.file)) := by
  rw [some_decisive, records_of_mem_ofRecords hg, List.find?_filter, List.head?_filter]
  simp only [decide_eq_true_eq]

end FileGroup

namespace Grouping

open FileGroup

/-- The place of a file is its number among the distinct files. -/
theorem places_ofRecords (records : List Record) (f : RepoPath) (i : Nat) :
    (ofRecords records).places.lookup f = some i ↔ (filesOf records)[i]? = some f := by
  rw [placed, ← List.getElem?_map]
  show (((FileGroup.ofRecords records).map file)[i]? = some f) ↔ _
  rw [map_file_ofRecords]

/-- Groups that divide some records by their files, with an index that finds them. -/
structure StablePartition (s : Grouping) (records : List Record) : Prop where
  /-- One group for each distinct file, in order of first appearance. -/
  files : FirstSeen (records.map Record.file) (fun _ => True) (s.groups.map file)
  /-- A group holds the records of its file, in order and as often as they occur. -/
  own : ∀ g ∈ s.groups, g.records = records.filter fun r => decide (r.file = g.file)
  nonempty : ∀ g ∈ s.groups, g.records ≠ []
  /-- The index has a place for exactly the files that occur. -/
  indexed : ∀ f, (∃ i, s.places.lookup f = some i) ↔ f ∈ records.map Record.file
  /-- The place of a file is where its group stands. -/
  placed : ∀ f i, s.places.lookup f = some i ↔ ∃ g, s.groups[i]? = some g ∧ g.file = f
  /-- The deciding record is one of the group. -/
  decisive_mem : ∀ g ∈ s.groups, g.decisive ∈ g.records
  /-- It is the first error-bearing record of the file, or else the first record of the file. -/
  decisive : ∀ g ∈ s.groups, some g.decisive =
    (records.find? fun r => decide (r.file = g.file ∧ r.hasError = true)).or
      (records.find? fun r => decide (r.file = g.file))

/-- Grouping is a stable partition after any number of records: the groups are the distinct files in
order of first appearance, each with exactly its own records in their order, the index has the place
of each group and no other, and in each group there is a record that decides. -/
theorem stablePartition_ofRecords (records : List Record) :
    (ofRecords records).StablePartition records where
  files := by
    show FirstSeen _ _ ((FileGroup.ofRecords records).map file)
    rw [map_file_ofRecords]
    exact firstSeen_filesOf records
  own := by
    intro g hg
    exact records_of_mem_ofRecords hg
  nonempty := by
    intro g _
    exact List.cons_ne_nil g.first g.others
  indexed := by
    intro f
    simp only [places_ofRecords]
    rw [← List.mem_iff_getElem?, filesOf, List.mem_eraseDups]
  placed := by
    intro f i
    rw [(ofRecords records).placed, Option.map_eq_some_iff]
  decisive_mem := by
    intro g _
    exact g.decisive_mem
  decisive := by
    intro g hg
    exact some_decisive_of_mem hg

/-- The lines of two files take turns. -/
example :
    let node : Region := ⟨1, 1, 1, 2, "ERROR"⟩
    let b : Record := ⟨⟨"b"⟩, none, "b"⟩
    let a : Record := ⟨⟨"a"⟩, some node, "a 1"⟩
    let b' : Record := ⟨⟨"b"⟩, some node, "b 1"⟩
    let grouping := ofRecords [b, a, b', a]
    grouping.groups = [⟨b, [b']⟩, ⟨a, [a]⟩] ∧ grouping.places = [(⟨"a"⟩, 1), (⟨"b"⟩, 0)] ∧
      grouping.groups.map decisive = [b', a] := by
  decide +kernel

end Grouping

end ParseAudit
