import ParseAudit.Check
import ParseAudit.Proofs.Audit.Tally
import Mathlib.Data.Set.Card
/-!
# Tallies are exact

The tally of some records counts and lists their files by two questions, whether a file is on the
allowlist and whether one of its records carries an error node, whatever the order of the records.

* `exact_ofRecords`: each figure of a tally as the size of a set, and each list by its members and
  its order;
* `toNat_summary`: the figures fit into 32 bits if the number of the files does;
* `aggregate_exact`: both together.
-/

namespace ParseAudit

/-- One of the records of the file carries an error node. -/
def Erring (records : List Record) (f : RepoPath) : Prop :=
  ∃ r ∈ records, r.file = f ∧ r.hasError = true

/-- A count over a list without repetitions is the size of a set. -/
theorem countP_eq_ncard {l : List RepoPath} (hnodup : l.Nodup) {p : RepoPath → Bool}
    {q : RepoPath → Prop} (h : ∀ t, q t ↔ t ∈ l ∧ p t = true) : l.countP p = {t | q t}.ncard := by
  have hset : {t | q t} = ((l.filter p).toFinset : Set RepoPath) := by
    ext t
    rw [Set.mem_ofPred_eq, List.coe_toFinset, Set.mem_ofPred_eq, List.mem_filter, h]
  rw [hset, Set.ncard_coe_finset, List.toFinset_card_of_nodup (hnodup.filter p),
    List.countP_eq_length_filter]

namespace Tally

/-- A tally that counts and lists the files of some records by what the records say of them. -/
structure Exact (t : Tally) (records : List Record) (invalid : FileSet) : Prop where
  failures : FirstSeen (records.map Record.file) (fun f => f ∉ invalid ∧ Erring records f)
    t.failures
  allowlistViolations : FirstSeen (records.map Record.file)
    (fun f => f ∈ invalid ∧ ¬Erring records f) t.allowlistViolations
  expectedInvalid : t.expectedInvalid =
    {f | f ∈ records.map Record.file ∧ f ∈ invalid ∧ Erring records f}.ncard
  successful : t.successful = {f | f ∈ records.map Record.file ∧ ¬Erring records f}.ncard
  total_eq : t.total = t.successful + t.expectedInvalid + t.failures.length
  total : t.total = {f | f ∈ records.map Record.file}.ncard

/-- The number of distinct files is the size of the set of files. -/
theorem length_filesOf (records : List Record) :
    (filesOf records).length = {f | f ∈ records.map Record.file}.ncard := by
  rw [← List.countP_true]
  apply countP_eq_ncard (nodup_filesOf records)
  intro f
  rw [filesOf, List.mem_eraseDups, iff_self_and]
  exact fun _ => rfl

/-- The tally of some records is exact. -/
theorem exact_ofRecords (records : List Record) (invalid : FileSet) :
    (Tally.ofRecords records invalid).Exact records invalid := by
  have hmem : ∀ f, f ∈ filesOf records ↔ f ∈ records.map Record.file :=
    fun f => List.mem_eraseDups
  have hclean : ∀ f, (!anyError records f) = true ↔ ¬Erring records f := by
    intro f
    rw [Bool.not_eq_true', ← Bool.not_eq_true, anyError_iff]
    rfl
  have hlisted : ∀ f, (!invalid.contains f) = true ↔ f ∉ invalid := by
    intro f
    rw [Bool.not_eq_true', ← Bool.not_eq_true, FileSet.contains_iff]
  refine ⟨?_, ?_, ?_, ?_, rfl, ?_⟩
  · rw [ofRecords_eq]
    refine (firstSeen_filesOf records).filter fun f => ?_
    rw [true_and, Bool.and_eq_true, hlisted, anyError_iff]
    rfl
  · rw [ofRecords_eq]
    refine (firstSeen_filesOf records).filter fun f => ?_
    rw [true_and, Bool.and_eq_true, FileSet.contains_iff, hclean]
  · rw [ofRecords_eq]
    apply countP_eq_ncard (nodup_filesOf records)
    intro f
    rw [hmem, Bool.and_eq_true, FileSet.contains_iff, anyError_iff]
    rfl
  · rw [ofRecords_eq]
    apply countP_eq_ncard (nodup_filesOf records)
    intro f
    rw [hmem, hclean]
  · rw [total_ofRecords, length_filesOf]

/-! ## 32-bit figures -/

/-- The figures of a summary are those of the tally as long as the files can be counted in 32
bits. -/
theorem toNat_summary {t : Tally} (h : t.total < UInt32.size) (settings : Settings) :
    (t.summary settings).totalFiles.toNat = t.total ∧
      (t.summary settings).successful.toNat = t.successful ∧
      (t.summary settings).expectedInvalid.toNat = t.expectedInvalid := by
  unfold total at h
  refine ⟨UInt32.toNat_ofNat_of_lt' h, UInt32.toNat_ofNat_of_lt' ?_, UInt32.toNat_ofNat_of_lt' ?_⟩
  · omega
  · omega

/-- The tally of any records is exact, however clean and erring records of one file are mixed: each
file of the records is counted once, the failing files and the stale ones are listed in the order in
which they are first seen, and if there are fewer than 2^32 files, the 32-bit figures of a summary
are these numbers. -/
theorem aggregate_exact (records : List Record) (invalid : FileSet) (settings : Settings)
    (hfew : {f | f ∈ records.map Record.file}.ncard < UInt32.size) :
    let tally := Tally.ofRecords records invalid
    let summary := tally.summary settings
    tally.Exact records invalid ∧
      summary.failures = tally.failures ∧
      summary.allowlistViolations = tally.allowlistViolations ∧
      summary.totalFiles.toNat = tally.total ∧
      summary.successful.toNat = tally.successful ∧
      summary.expectedInvalid.toNat = tally.expectedInvalid := by
  have hexact := exact_ofRecords records invalid
  exact ⟨hexact, rfl, rfl, toNat_summary (hexact.total ▸ hfew) settings⟩

/-- Four files, of which `a` and `c` are on the allowlist.  The first record of `b` is a clean one,
and the records of `a` and `b` take turns. -/
theorem aggregate_exact_mixed :
    let region : Region := ⟨1, 1, 1, 2, "ERROR"⟩
    let records : List Record := [⟨⟨"b"⟩, none, "b"⟩, ⟨⟨"a"⟩, some region, "a 1"⟩,
      ⟨⟨"b"⟩, some region, "b 1"⟩, ⟨⟨"d"⟩, none, "d"⟩, ⟨⟨"a"⟩, none, "a"⟩, .clean ⟨"c"⟩]
    let invalid : FileSet := .ofList [⟨"a"⟩, ⟨"c"⟩]
    let settings : Settings :=
      ⟨⟨⟨["*"], none, .patterns⟩, ⟨[], none, .patterns⟩⟩, "p", [], .batch, 50⟩
    let tally := Tally.ofRecords records invalid
    let summary := tally.summary settings
    {f | f ∈ records.map Record.file}.ncard < UInt32.size ∧
      tally = ⟨2, 1, [⟨"b"⟩], [⟨"c"⟩]⟩ ∧
      tally.Exact records invalid ∧
      summary.failures = tally.failures ∧
      summary.allowlistViolations = tally.allowlistViolations ∧
      summary.totalFiles.toNat = tally.total ∧
      summary.successful.toNat = tally.successful ∧
      summary.expectedInvalid.toNat = tally.expectedInvalid := by
  intro region records invalid settings tally summary
  have hfew : {f | f ∈ records.map Record.file}.ncard < UInt32.size := by
    rw [← length_filesOf]
    decide +kernel
  exact ⟨hfew, by decide +kernel, aggregate_exact records invalid settings hfew⟩

end Tally

end ParseAudit
