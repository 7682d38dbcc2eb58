import ParseAudit.FileSet
import ParseAudit.Region
/-!
# Outcomes and their tally

Each file that was checked has one `Outcome`, by two questions: is it on the allowlist of files
known to be invalid, and did the parser report an error node for it?  Records are grouped by file,
in the order in which the files first appear; the first error-bearing record of a group decides, or
its first record if there is none.  A `Grouping` finds the group of a file by its place.  The
`Tally` counts every file once.
-/

namespace ParseAudit

/-- What became of one file. -/
inductive Outcome where
  /-- Not on the allowlist, and clean. -/
  | success
  /-- On the allowlist, with an error. -/
  | expectedInvalid
  /-- Not on the allowlist, with an error.  This fails the audit. -/
  | unexpectedFailure
  /-- On the allowlist, and clean. -/
  | allowlistViolation
  deriving DecidableEq, Repr

namespace Outcome

/-- The name of an outcome. -/
def name : Outcome → String
  | success => "success"
  | expectedInvalid => "expected_invalid"
  | unexpectedFailure => "unexpected_failure"
  | allowlistViolation => "allowlist_violation"

/-- Whether the outcome fails the audit. -/
def isFailure (o : Outcome) : Bool := o == .unexpectedFailure

/-- The outcome by membership and error. -/
def ofFacts (listed hasError : Bool) : Outcome :=
  match listed, hasError with
  | false, false => success
  | false, true => unexpectedFailure
  | true, true => expectedInvalid
  | true, false => allowlistViolation

/-- The outcome that a record alone stands for. -/
def ofRecord (invalid : FileSet) (record : Record) : Outcome :=
  ofFacts (invalid.contains record.file) record.hasError

end Outcome

/-! ## Groups -/

/-- The records of one file, of which there is at least one. -/
structure FileGroup where
  first : Record
  others : List Record
  deriving DecidableEq, Repr

namespace FileGroup

/-- The file of a group. -/
def file (g : FileGroup) : RepoPath := g.first.file

/-- The records of a group, in output order. -/
def records (g : FileGroup) : List Record := g.first :: g.others

/-- The error-bearing records of a group. -/
def errors (g : FileGroup) : List Record := g.records.filter Record.hasError

/-- The record that decides the outcome. -/
def decisive (g : FileGroup) : Record := g.errors.headD g.first

/-- What became of the file of a group. -/
def outcome (g : FileGroup) (invalid : FileSet) : Outcome := .ofRecord invalid g.decisive

/-- A group with one more record. -/
def extend (g : FileGroup) (r : Record) : FileGroup := { g with others := g.others ++ [r] }

@[simp] theorem file_extend (g : FileGroup) (r : Record) : (g.extend r).file = g.file := rfl

@[simp] theorem records_extend (g : FileGroup) (r : Record) :
    (g.extend r).records = g.records ++ [r] := rfl

/-- A group has an error exactly if the deciding record has one. -/
theorem hasError_decisive (g : FileGroup) : g.decisive.hasError = !g.errors.isEmpty := by
  unfold decisive
  cases h : g.errors with
  | nil =>
    have hf : g.first ∉ g.errors := by simp [h]
    cases hb : g.first.hasError with
    | false => simp [hb]
    | true => exact absurd (List.mem_filter.2 ⟨List.mem_cons_self, hb⟩) hf
  | cons r rs =>
    have hr : r ∈ g.errors := by simp [h]
    simpa using (List.mem_filter.1 hr).2

end FileGroup

/-! ## Grouping -/

/-- Groups in the order in which they were begun, with an index of where the group of a file
stands. -/
structure Grouping where
  groups : List FileGroup
  /-- The places of groups by their files. -/
  places : List (RepoPath × Nat)
  /-- A file has a place exactly if its group stands there. -/
  placed : ∀ file i, places.lookup file = some i ↔ groups[i]?.map FileGroup.file = some file

namespace Grouping

/-- No groups. -/
def empty : Grouping := ⟨[], [], by simp⟩

/-- A place in the index is the place of a group. -/
theorem lt_length (s : Grouping) {file : RepoPath} {i : Nat} (h : s.places.lookup file = some i) :
    i < s.groups.length := by
  obtain ⟨g, hg, -⟩ := Option.map_eq_some_iff.1 ((s.placed file i).1 h)
  exact (List.getElem?_eq_some_iff.1 hg).1

/-- What stands where, with one more group at the end. -/
theorem map_file_concat_iff (groups : List FileGroup) (g : FileGroup) (file : RepoPath) (i : Nat) :
    (groups ++ [g])[i]?.map FileGroup.file = some file ↔
      groups[i]?.map FileGroup.file = some file ∨ i = groups.length ∧ g.file = file := by
  rw [List.getElem?_append]
  rcases Nat.lt_trichotomy i groups.length with hi | rfl | hi
  · simp [hi, Nat.ne_of_lt hi]
  · simp
  · have hpast : ¬i < groups.length := Nat.not_lt_of_gt hi
    have hsub : i - groups.length ≠ 0 := Nat.sub_ne_zero_of_lt hi
    simp [hpast, Nat.ne_of_gt hi, hsub]

/-- Adds a record to the group at a place. -/
def extendAt (s : Grouping) (r : Record) (i : Nat) (h : i < s.groups.length) : Grouping where
  groups := s.groups.set i (s.groups[i].extend r)
  places := s.places
  placed := by
    intro file j
    rw [s.placed, List.getElem?_set]
    by_cases hij : i = j
    · subst hij
      simp [h]
    · rw [if_neg hij]

/-- Begins the group of a file that has none, at the end. -/
def begin (s : Grouping) (r : Record) (h : s.places.lookup r.file = none) : Grouping where
  groups := s.groups ++ [⟨r, []⟩]
  places := (r.file, s.groups.length) :: s.places
  placed := by
    intro file i
    rw [map_file_concat_iff, List.lookup_cons, ← s.placed]
    -- The file had no place before, so the new one is its only place.
    by_cases hfile : file = r.file
    · subst hfile
      simp [h, FileGroup.file, eq_comm]
    · simp [beq_false_of_ne hfile, FileGroup.file, Ne.symm hfile]

/-- Adds a record to the group of its file, if the index has a place for it, or else as a new
group. -/
def add (s : Grouping) (r : Record) : Grouping :=
  match h : s.places.lookup r.file with
  | some i => s.extendAt r i (s.lt_length h)
  | none => s.begin r h

/-- Some records, grouped one after another. -/
def ofRecords (records : List Record) : Grouping := records.foldl add empty

end Grouping

namespace FileGroup

/-- The groups of a list of records. -/
def ofRecords (records : List Record) : List FileGroup := (Grouping.ofRecords records).groups

end FileGroup

/-! ## The tally -/

/-- The count of one audit.  Every file counts once. -/
structure Tally where
  /-- Clean files, those of the allowlist included. -/
  successful : Nat
  expectedInvalid : Nat
  /-- Files that fail the audit, in the order in which they were first seen. -/
  failures : List RepoPath
  /-- Clean files of the allowlist, in the order in which they were first seen. -/
  allowlistViolations : List RepoPath
  deriving DecidableEq, Repr

namespace Tally

/-- The count of nothing. -/
def zero : Tally := ⟨0, 0, [], []⟩

/-- The number of files. -/
def total (t : Tally) : Nat := t.successful + t.expectedInvalid + t.failures.length

/-- Whether no file fails the audit. -/
def passed (t : Tally) : Bool := t.failures.isEmpty

/-- Counts one more file. -/
def add (t : Tally) (file : RepoPath) : Outcome → Tally
  | .success => { t with successful := t.successful + 1 }
  | .allowlistViolation =>
    { t with
      successful := t.successful + 1
      allowlistViolations := t.allowlistViolations ++ [file] }
  | .expectedInvalid => { t with expectedInvalid := t.expectedInvalid + 1 }
  | .unexpectedFailure => { t with failures := t.failures ++ [file] }

/-- Counts the files of some groups. -/
def ofGroups (groups : List FileGroup) (invalid : FileSet) : Tally :=
  groups.foldl (fun t g => t.add g.file (g.outcome invalid)) zero

/-- Counts the files of some records. -/
def ofRecords (records : List Record) (invalid : FileSet) : Tally :=
  ofGroups (FileGroup.ofRecords records) invalid

end Tally

end ParseAudit
