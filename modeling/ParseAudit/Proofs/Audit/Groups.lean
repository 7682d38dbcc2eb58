import ParseAudit.Audit.Outcome
import ParseAudit.Proofs.Audit.FirstSeen
/-!
# Groups of records

Grouping puts every record into the group of its file, one record after another.  These views of
the result do without the loop, and without the index of places.

* `groups_add` and `ofRecords_eq_foldl`: the index leads to the group that a search through the
  groups finds;
* `map_file_ofRecords` and `records_of_mem_ofRecords`: the groups are the distinct files in order of
  first appearance, each with exactly its own records in their order;
* `outcome_of_mem`, `map_file_filter_outcome`: outcomes by what is known of the file of a group;
* `ofRecords_flatMap`: records that come file by file are grouped file by file.
-/

namespace ParseAudit

/-- The distinct files of some records, in order of first appearance. -/
def filesOf (records : List Record) : List RepoPath := (records.map Record.file).eraseDups

/-- Whether one of the records of a file carries an error node. -/
def anyError (records : List Record) (file : RepoPath) : Bool :=
  records.any fun r => decide (r.file = file) && r.hasError

theorem filesOf_concat (records : List Record) (r : Record) :
    filesOf (records ++ [r]) =
      if r.file ∈ filesOf records then filesOf records else filesOf records ++ [r.file] := by
  unfold filesOf
  rw [List.map_append, List.map_singleton, eraseDups_concat]
  simp only [List.mem_eraseDups]

/-- The distinct files of some records stand in the order in which they are first seen. -/
theorem firstSeen_filesOf (records : List Record) :
    FirstSeen (records.map Record.file) (fun _ => True) (filesOf records) :=
  firstSeen_eraseDups _

theorem nodup_filesOf (records : List Record) : (filesOf records).Nodup :=
  (firstSeen_filesOf records).nodup

theorem mem_filesOf {records : List Record} {f : RepoPath} :
    f ∈ filesOf records ↔ ∃ r ∈ records, r.file = f := by
  unfold filesOf
  rw [List.mem_eraseDups, List.mem_map]

theorem anyError_iff {records : List Record} {f : RepoPath} :
    anyError records f = true ↔ ∃ r ∈ records, r.file = f ∧ r.hasError = true := by
  unfold anyError
  rw [List.any_eq_true]
  simp only [Bool.and_eq_true, decide_eq_true_eq]

namespace FileGroup

/-! ## Adding one record -/

/-- Adds a record to the group of its file, which is searched for from the front, or as a new group
at the end. -/
def add : List FileGroup → Record → List FileGroup
  | [], r => [⟨r, []⟩]
  | g :: gs, r =>
    if g.file = r.file then { g with others := g.others ++ [r] } :: gs else g :: add gs r

/-- A record of a file without a group makes a group of its own, at the end. -/
theorem add_of_not_mem {gs : List FileGroup} {r : Record} (h : r.file ∉ gs.map file) :
    add gs r = gs ++ [⟨r, []⟩] := by
  induction gs with
  | nil => rfl
  | cons g gs ih =>
    rw [List.map_cons, List.mem_cons, not_or] at h
    unfold add
    rw [if_neg (Ne.symm h.1), ih h.2, List.cons_append]

/-- A record of a file with a group goes to the end of that group. -/
theorem add_of_mem {gs gs' : List FileGroup} {g : FileGroup} {r : Record}
    (hfront : r.file ∉ gs.map file) (hg : g.file = r.file) :
    add (gs ++ g :: gs') r = gs ++ g.extend r :: gs' := by
  induction gs with
  | nil =>
    unfold add
    rw [List.nil_append]
    dsimp only
    rw [if_pos hg]
    rfl
  | cons k gs ih =>
    rw [List.map_cons, List.mem_cons, not_or] at hfront
    rw [List.cons_append]
    unfold add
    rw [if_neg (Ne.symm hfront.1), ih hfront.2, List.cons_append]

/-- Where the group of a file stands among the groups. -/
theorem exists_split_of_mem {gs : List FileGroup} {f : RepoPath} (h : f ∈ gs.map file) :
    ∃ front g back, gs = front ++ g :: back ∧ f ∉ front.map file ∧ g.file = f := by
  induction gs with
  | nil => cases h
  | cons g gs ih =>
    by_cases hg : g.file = f
    · exact ⟨[], g, gs, rfl, List.not_mem_nil, hg⟩
    · have hmem : f ∈ gs.map file := by
        rcases List.mem_cons.1 h with h | h
        · exact absurd h.symm hg
        · exact h
      obtain ⟨front, k, back, rfl, hfront, hk⟩ := ih hmem
      refine ⟨g :: front, k, back, rfl, ?_, hk⟩
      exact List.not_mem_cons_of_ne_of_not_mem (Ne.symm hg) hfront

/-- Adding a record adds its file, unless it is there. -/
theorem map_file_add (gs : List FileGroup) (r : Record) :
    (add gs r).map file =
      if r.file ∈ gs.map file then gs.map file else gs.map file ++ [r.file] := by
  by_cases h : r.file ∈ gs.map file
  · rw [if_pos h]
    obtain ⟨front, g, back, rfl, hfront, hg⟩ := exists_split_of_mem h
    rw [add_of_mem hfront hg]
    simp
  · rw [if_neg h, add_of_not_mem h, List.map_append]
    rfl

end FileGroup

namespace Grouping

open FileGroup

/-- A file has no place exactly if it has no group. -/
theorem lookup_eq_none_iff {s : Grouping} {f : RepoPath} :
    s.places.lookup f = none ↔ f ∉ s.groups.map file := by
  rw [Option.eq_none_iff_forall_ne_some]
  simp only [ne_eq, s.placed, List.mem_iff_getElem?, List.getElem?_map, not_exists]

/-- The groups in front of a place belong to other files. -/
theorem not_mem_take {s : Grouping} {f : RepoPath} {i : Nat} (h : s.places.lookup f = some i) :
    f ∉ (s.groups.take i).map file := by
  rw [List.map_take, List.mem_take_iff_getElem]
  rintro ⟨j, hj, hfile⟩
  have hplace : s.places.lookup f = some j := by
    rw [s.placed, ← List.getElem?_map, ← hfile]
    exact List.getElem?_eq_getElem _
  rw [h, Option.some.injEq] at hplace
  omega

/-- The index leads to the group that a search finds. -/
theorem groups_add (s : Grouping) (r : Record) : (s.add r).groups = FileGroup.add s.groups r := by
  unfold add
  split
  · next i h =>
    have hi : i < s.groups.length := s.lt_length h
    have hfile : s.groups[i].file = r.file := by
      have hplaced := (s.placed r.file i).1 h
      rwa [List.getElem?_eq_getElem hi, Option.map_some, Option.some.injEq] at hplaced
    -- The search stops at the place, since no group in front of it has the file.
    calc s.groups.set i (s.groups[i].extend r)
        = s.groups.take i ++ s.groups[i].extend r :: s.groups.drop (i + 1) :=
          List.set_eq_take_append_cons_drop.trans (if_pos hi)
      _ = FileGroup.add (s.groups.take i ++ s.groups[i] :: s.groups.drop (i + 1)) r :=
          (add_of_mem (not_mem_take h) hfile).symm
      _ = FileGroup.add s.groups r := by rw [List.getElem_cons_drop, List.take_append_drop]
  · next h => exact (add_of_not_mem (lookup_eq_none_iff.1 h)).symm

/-- Grouping with the index is grouping by searches. -/
theorem groups_foldl_add (s : Grouping) (records : List Record) :
    (records.foldl add s).groups = records.foldl FileGroup.add s.groups := by
  induction records generalizing s with
  | nil => rfl
  | cons r rs ih => rw [List.foldl_cons, List.foldl_cons, ih, groups_add]

end Grouping

namespace FileGroup

/-! ## All records -/

theorem ofRecords_eq_foldl (records : List Record) : ofRecords records = records.foldl add [] :=
  Grouping.groups_foldl_add .empty records

theorem ofRecords_concat (records : List Record) (r : Record) :
    ofRecords (records ++ [r]) = add (ofRecords records) r := by
  rw [ofRecords_eq_foldl, ofRecords_eq_foldl, List.foldl_append]
  rfl

/-- The files of the groups are the distinct files of the records, in order of first appearance. -/
theorem map_file_ofRecords (records : List Record) :
    (ofRecords records).map file = filesOf records := by
  induction records using List.reverseRecOn with
  | nil => rfl
  | append_singleton records r ih => rw [ofRecords_concat, map_file_add, filesOf_concat, ih]

/-- The group of a file holds exactly the records of that file, in their order. -/
theorem records_of_mem_ofRecords {records : List Record} {g : FileGroup}
    (hg : g ∈ ofRecords records) :
    g.records = records.filter fun r => decide (r.file = g.file) := by
  induction records using List.reverseRecOn generalizing g with
  | nil => cases hg
  | append_singleton records r ih =>
    rw [ofRecords_concat] at hg
    rw [List.filter_append]
    by_cases h : r.file ∈ (ofRecords records).map file
    · obtain ⟨front, k, back, hsplit, hfront, hk⟩ := exists_split_of_mem h
      have hnodup := nodup_filesOf records
      rw [← map_file_ofRecords, hsplit, List.map_append, List.map_cons] at hnodup
      rw [hsplit, add_of_mem hfront hk] at hg
      rw [hsplit] at ih
      -- Only the group of the new record has changed, and no other one has its file.
      have hother : ∀ {g}, g ∈ front ++ back → g.file ≠ r.file := by
        intro g hmem heq
        rw [← hk] at heq
        rw [List.nodup_append, List.nodup_cons] at hnodup
        rcases List.mem_append.1 hmem with hf | hb
        · exact hnodup.2.2 g.file (List.mem_map_of_mem hf) k.file List.mem_cons_self heq
        · exact hnodup.2.1.1 (heq ▸ List.mem_map_of_mem hb)
      rcases List.mem_append.1 hg with hf | hb
      · have hne := hother (List.mem_append_left back hf)
        rw [ih (List.mem_append_left _ hf)]
        simp [Ne.symm hne]
      · rcases List.mem_cons.1 hb with rfl | hb
        · rw [records_extend, file_extend, ih (List.mem_append_right _ List.mem_cons_self)]
          simp [hk]
        · have hne := hother (List.mem_append_right front hb)
          rw [ih (List.mem_append_right _ (List.mem_cons_of_mem _ hb))]
          simp [Ne.symm hne]
    · rw [add_of_not_mem h] at hg
      rcases List.mem_append.1 hg with hg | hg
      · have hne : r.file ≠ g.file := fun heq => h (heq ▸ List.mem_map_of_mem hg)
        rw [ih hg]
        simp [hne]
      · rw [List.mem_singleton] at hg
        subst hg
        have hnone : records.filter (fun q => decide (q.file = r.file)) = [] := by
          rw [List.filter_eq_nil_iff]
          intro q hq heq
          rw [map_file_ofRecords, mem_filesOf] at h
          exact h ⟨q, hq, by simpa using heq⟩
        show [r] = _
        rw [show (FileGroup.mk r []).file = r.file from rfl, hnone]
        simp

/-- All records of a group are records of its file. -/
theorem file_of_mem_records {records : List Record} {g : FileGroup} (hg : g ∈ ofRecords records)
    {r : Record} (hr : r ∈ g.records) : r.file = g.file := by
  rw [records_of_mem_ofRecords hg, List.mem_filter] at hr
  simpa using hr.2

/-- The record that decides is one of the group. -/
theorem decisive_mem (g : FileGroup) : g.decisive ∈ g.records := by
  unfold decisive
  cases herrors : g.errors with
  | nil => exact List.mem_cons_self
  | cons r rs =>
    have hr : r ∈ g.errors := by
      rw [herrors]
      exact List.mem_cons_self
    exact (List.mem_filter.1 hr).1

/-- The outcome of a group depends on its file only: whether it is listed, and whether one of its
records has an error. -/
theorem outcome_of_mem {records : List Record} {g : FileGroup} (hg : g ∈ ofRecords records)
    (invalid : FileSet) :
    g.outcome invalid = .ofFacts (invalid.contains g.file) (anyError records g.file) := by
  have hfile : g.decisive.file = g.file := file_of_mem_records hg g.decisive_mem
  have herror : g.decisive.hasError = anyError records g.file := by
    rw [hasError_decisive, Bool.eq_iff_iff, anyError_iff, Bool.not_eq_true',
      List.isEmpty_eq_false_iff_exists_mem]
    unfold errors
    rw [records_of_mem_ofRecords hg]
    simp only [List.mem_filter, decide_eq_true_eq]
    constructor
    · rintro ⟨r, ⟨hr, hf⟩, he⟩
      exact ⟨r, hr, hf, he⟩
    · rintro ⟨r, hr, hf, he⟩
      exact ⟨r, ⟨hr, hf⟩, he⟩
  unfold outcome Outcome.ofRecord
  rw [hfile, herror]

/-! ## Groups and files -/

/-- A question about the outcome of a group is one about its file. -/
theorem question_of_mem {records : List Record} {g : FileGroup} (hg : g ∈ ofRecords records)
    (invalid : FileSet) {p : Outcome → Bool} {q : Bool → Bool → Bool}
    (h : ∀ listed hasError, p (.ofFacts listed hasError) = q listed hasError) :
    p (g.outcome invalid) = q (invalid.contains g.file) (anyError records g.file) := by
  rw [outcome_of_mem hg, h]

/-- Groups with certain outcomes are files of which certain facts are known. -/
theorem map_file_filter_outcome (records : List Record) (invalid : FileSet) (p : Outcome → Bool)
    (q : Bool → Bool → Bool)
    (h : ∀ listed hasError, p (.ofFacts listed hasError) = q listed hasError) :
    ((ofRecords records).filter fun g => p (g.outcome invalid)).map file =
      (filesOf records).filter fun f => q (invalid.contains f) (anyError records f) := by
  rw [← map_file_ofRecords, List.filter_map,
    List.filter_congr fun g hg => question_of_mem hg invalid h]
  rfl

theorem countP_outcome (records : List Record) (invalid : FileSet) (p : Outcome → Bool)
    (q : Bool → Bool → Bool)
    (h : ∀ listed hasError, p (.ofFacts listed hasError) = q listed hasError) :
    ((ofRecords records).countP fun g => p (g.outcome invalid)) =
      (filesOf records).countP fun f => q (invalid.contains f) (anyError records f) := by
  rw [List.countP_eq_length_filter, List.countP_eq_length_filter,
    ← map_file_filter_outcome records invalid p q h, List.length_map]

/-! ## Records that come file by file -/

/-- The group of some records, of which there should be one at least. -/
def ofBlock (file : RepoPath) (records : List Record) : FileGroup :=
  ⟨records.headD (.clean file), records.tail⟩

/-- Records of one file go to the group of that file at the end. -/
theorem foldl_add_same (gs : List FileGroup) (g : FileGroup) (records : List Record)
    (hg : g.file ∉ gs.map file) (h : ∀ r ∈ records, r.file = g.file) :
    records.foldl add (gs ++ [g]) = gs ++ [{ g with others := g.others ++ records }] := by
  induction records generalizing g with
  | nil => simp
  | cons r rs ih =>
    have hr : g.file = r.file := (h r List.mem_cons_self).symm
    rw [List.foldl_cons, add_of_mem (hr ▸ hg) hr,
      ih (g.extend r) hg fun q hq => h q (List.mem_cons_of_mem r hq)]
    simp [extend]

/-- Records that come file by file are grouped file by file. -/
theorem foldl_add_flatMap (block : RepoPath → List Record) (files : List RepoPath)
    (gs : List FileGroup) (hnodup : files.Nodup) (hnew : ∀ f ∈ files, f ∉ gs.map file)
    (hblock : ∀ f ∈ files, block f ≠ [] ∧ ∀ r ∈ block f, r.file = f) :
    (files.flatMap block).foldl add gs = gs ++ files.map fun f => ofBlock f (block f) := by
  induction files generalizing gs with
  | nil => simp
  | cons f fs ih =>
    obtain ⟨hne, hfile⟩ := hblock f List.mem_cons_self
    obtain ⟨r, rs, hrs⟩ := List.exists_cons_of_ne_nil hne
    rw [hrs] at hfile
    have hr : r.file = f := hfile r List.mem_cons_self
    have hf : f ∉ gs.map file := hnew f List.mem_cons_self
    have hgroup : (block f).foldl add gs = gs ++ [ofBlock f (block f)] := by
      have hfirst : (FileGroup.mk r []).file ∉ gs.map file := by
        show r.file ∉ gs.map file
        rw [hr]
        exact hf
      rw [hrs, List.foldl_cons, add_of_not_mem hfirst, foldl_add_same gs ⟨r, []⟩ rs hfirst]
      · rfl
      · intro q hq
        exact (hfile q (List.mem_cons_of_mem r hq)).trans hr.symm
    have hnext : ∀ k ∈ fs, k ∉ (gs ++ [ofBlock f (block f)]).map file := by
      intro k hk hmem
      rw [List.map_append, List.mem_append] at hmem
      rcases hmem with hmem | hmem
      · exact hnew k (List.mem_cons_of_mem f hk) hmem
      · have hkf : k = f := by
          rw [hrs] at hmem
          simpa [ofBlock, file, hr] using hmem
        exact (List.nodup_cons.1 hnodup).1 (hkf ▸ hk)
    rw [List.flatMap_cons, List.foldl_append, hgroup,
      ih _ (List.nodup_cons.1 hnodup).2 hnext fun k hk => hblock k (List.mem_cons_of_mem f hk)]
    simp

/-- Records that come file by file are grouped file by file. -/
theorem ofRecords_flatMap {block : RepoPath → List Record} {files : List RepoPath}
    (hnodup : files.Nodup) (hblock : ∀ f ∈ files, block f ≠ [] ∧ ∀ r ∈ block f, r.file = f) :
    ofRecords (files.flatMap block) = files.map fun f => ofBlock f (block f) := by
  rw [ofRecords_eq_foldl,
    foldl_add_flatMap block files [] hnodup (fun f _ => List.not_mem_nil) hblock]
  rfl

end FileGroup

end ParseAudit
