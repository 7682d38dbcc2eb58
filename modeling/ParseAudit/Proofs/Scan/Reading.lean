import ParseAudit.Proofs.Scan.Attribution
/-!
# What an output is read as

Each line of an output contributes on its own: nothing, an unmatched line, or one record.  An output
is read exactly when each of its lines is, and what it is read as is put together from the lines.

* `scanLine_eq_ok_iff`: what a line contributes, by attribution and by what its rest says;
* `scanLines_cons`: what a line and the lines behind it contribute;
* `scanLines_eq_ok_iff`, `scanLines_eq_error_iff`: what a list of lines contributes, and which of
  them it fails with;
* `mem_records_scanLines`: every record stands for an attributed line;
* `mem_files_batch`, `hasError_batch_iff`: which files have a record, and which one with an error;
* `single_eq_batch`: a single file is no special case.
-/

namespace ParseAudit

namespace ScanOutput

@[simp] theorem append_records (a b : ScanOutput) : (a ++ b).records = a.records ++ b.records := rfl

/-- What was read from several outputs, one after another. -/
def concat (outs : List ScanOutput) : ScanOutput where
  records := outs.flatMap ScanOutput.records
  unmatched := outs.flatMap ScanOutput.unmatched

theorem concat_cons (out : ScanOutput) (outs : List ScanOutput) :
    concat (out :: outs) = out ++ concat outs := rfl

theorem concat_append (outs outs' : List ScanOutput) :
    concat (outs ++ outs') = concat outs ++ concat outs' := by
  unfold concat
  rw [List.flatMap_append, List.flatMap_append]
  rfl

/-- Outputs of one record each make up the list of these records. -/
theorem concat_singletons (rs : List Record) : concat (rs.map fun r => ⟨[r], []⟩) = ⟨rs, []⟩ := by
  induction rs with
  | nil => rfl
  | cons r rs ih =>
    rw [List.map_cons, concat_cons, ih]
    rfl

end ScanOutput

namespace Scan

open Chars Line

/-! ## One line -/

/-- What a line contributes when the given files are looked for. -/
inductive Contributes (files : RepoPath → Prop) (base : String) (line : List Char) :
    ScanOutput → Prop where
  /-- A blank line contributes nothing. -/
  | blank (h : trim line = []) : Contributes files base line .nil
  /-- A line that names none of the files is kept as it is. -/
  | unmatched (h : trim line ≠ [])
      (hnone : ∀ before after, IsCut (trim line) before after → ¬files (fileOf base before)) :
      Contributes files base line ⟨[], [String.ofList (trim line)]⟩
  /-- An attributed line is one record, by what its rest says. -/
  | record {before after : List Char} {region : Option Region}
      (hatt : Attributed files base (trim line) before after) (hsaid : Says (trim after) region) :
      Contributes files base line ⟨[⟨fileOf base before, region, String.ofList (trim line)⟩], []⟩

/-- A line that belongs to a file contributes a record of it. -/
theorem Contributes.of_attributed {files : RepoPath → Prop} {base : String}
    {line before after : List Char} {out : ScanOutput} (h : Contributes files base line out)
    (hatt : Attributed files base (trim line) before after) :
    ∃ region, Says (trim after) region ∧
      out = ⟨[⟨fileOf base before, region, String.ofList (trim line)⟩], []⟩ := by
  cases h with
  | blank hblank => exact absurd hblank hatt.cut.text_ne_nil
  | unmatched hne hnone => exact absurd hatt.mem (hnone before after hatt.cut)
  | @record before' after' region hatt' hsaid =>
    obtain ⟨rfl, rfl⟩ := hatt.unique hatt'
    exact ⟨region, hsaid, rfl⟩

theorem attribution_trim (isTarget : RepoPath → Bool) (base : String) (line : List Char) :
    attribution isTarget base (trim line) = attribution isTarget base line := by
  unfold attribution cuts
  rw [trim_trim]

/-- The start of a cut of a trimmed text does not vanish when its end is trimmed. -/
theorem trimEnd_ne_nil_of_cut {line before after : List Char}
    (hcut : IsCut (trim line) before after) : trimEnd before ≠ [] := by
  intro h
  obtain ⟨c, cs, rfl⟩ := List.exists_cons_of_ne_nil hcut.ne_nil
  have hhead : (trim line).head? = some c := by rw [← hcut.append]; rfl
  have hblank := (trimmed_trim line).head c hhead
  exact absurd List.mem_cons_self ((trimEnd_eq_nil_iff.1 h).not_mem hblank)

/-- What a line contributes, by attribution and by what its rest says. -/
theorem scanLine_eq_ok_iff {isTarget : RepoPath → Bool} {base : String} {line : List Char}
    {out : ScanOutput} :
    scanLine isTarget base line = .ok out ↔ Contributes (isTarget · = true) base line out := by
  unfold scanLine
  dsimp only
  rw [attribution_trim]
  by_cases htrim : trim line = []
  · rw [htrim, List.isEmpty_nil, if_pos rfl]
    constructor
    · intro h
      cases h
      exact .blank htrim
    · intro h
      cases h with
      | blank => rfl
      | unmatched hne => exact absurd htrim hne
      | record hatt => exact absurd htrim hatt.cut.text_ne_nil
  · rw [List.isEmpty_eq_false_iff.2 htrim, if_neg Bool.false_ne_true]
    cases hattribution : attribution isTarget base line with
    | none =>
      have hnone := attribution_eq_none_iff.1 hattribution
      constructor
      · intro h
        cases h
        refine .unmatched htrim fun before after hcut hmem => ?_
        rw [hnone before after hcut] at hmem
        cases hmem
      · intro h
        cases h with
        | blank hblank => exact absurd hblank htrim
        | unmatched => rfl
        | record hatt =>
          have hmem := hatt.mem
          rw [hnone _ _ hatt.cut] at hmem
          cases hmem
    | some parts =>
      obtain ⟨path, rest⟩ := parts
      obtain ⟨before, after, hatt, rfl, rfl⟩ := attribution_eq_some_iff.1 hattribution
      have hpath := trimEnd_ne_nil_of_cut hatt.cut
      dsimp only
      constructor
      · intro h
        cases hrecord : recordOfParts (trimEnd before) (trim after) (trim line) base with
        | error e => rw [hrecord] at h; cases h
        | ok r =>
          rw [hrecord] at h
          cases h
          obtain ⟨region, hsaid, rfl⟩ := (recordOfParts_eq_ok_iff hpath).1 hrecord
          exact .record hatt hsaid
      · intro h
        cases h with
        | blank hblank => exact absurd hblank htrim
        | unmatched hne hnone => exact absurd hatt.mem (hnone _ _ hatt.cut)
        | record hatt' hsaid =>
          obtain ⟨rfl, rfl⟩ := hatt'.unique hatt
          rw [(recordOfParts_eq_ok_iff hpath).2 ⟨_, hsaid, rfl⟩]
          rfl

/-- Two ways to look for files agree on a line that they attribute in the same way. -/
theorem scanLine_congr {isTarget isTarget' : RepoPath → Bool} {base : String} {line : List Char}
    (h : attribution isTarget base line = attribution isTarget' base line) :
    scanLine isTarget base line = scanLine isTarget' base line := by
  unfold scanLine
  dsimp only
  rw [attribution_trim, attribution_trim, h]

/-- What a line is read as depends on its trimmed text only. -/
theorem scanLine_trim (isTarget : RepoPath → Bool) (base : String) (line : List Char) :
    scanLine isTarget base (trim line) = scanLine isTarget base line := by
  unfold scanLine
  dsimp only
  rw [trim_trim]

/-- A blank line contributes nothing. -/
theorem scanLine_of_trim_eq_nil {isTarget : RepoPath → Bool} {base : String} {line : List Char}
    (h : trim line = []) : scanLine isTarget base line = .ok .nil :=
  scanLine_eq_ok_iff.2 (.blank h)

/-- A line that belongs to a file is read by what stands behind the file. -/
theorem scanLine_of_attributed {isTarget : RepoPath → Bool} {base : String}
    {line before after : List Char}
    (hatt : Attributed (isTarget · = true) base (trim line) before after) :
    scanLine isTarget base line =
      (recordOfParts (trimEnd before) (trim after) (trim line) base).map fun r => ⟨[r], []⟩ := by
  have hfound : attribution isTarget base (trim line) = some (trimEnd before, trim after) := by
    rw [attribution_trim]
    exact attribution_eq_some_iff.2 ⟨before, after, hatt, rfl, rfl⟩
  unfold scanLine
  dsimp only
  rw [List.isEmpty_eq_false_iff.2 hatt.cut.text_ne_nil, if_neg Bool.false_ne_true, hfound]
  dsimp only
  cases recordOfParts (trimEnd before) (trim after) (trim line) base with
  | error e => rfl
  | ok r => rfl

/-! ## Many lines -/

/-- What a line contributes, or nothing if it cannot be read. -/
def outputOf (isTarget : RepoPath → Bool) (base : String) (line : List Char) : ScanOutput :=
  match scanLine isTarget base line with
  | .ok out => out
  | .error _ => .nil

theorem outputOf_eq {isTarget : RepoPath → Bool} {base : String} {line : List Char}
    {out : ScanOutput} (h : scanLine isTarget base line = .ok out) :
    outputOf isTarget base line = out := by
  unfold outputOf
  rw [h]

/-- What a line and the lines behind it contribute. -/
theorem scanLines_cons (isTarget : RepoPath → Bool) (base : String) (number : Nat)
    (line : List Char) (lines : List (List Char)) :
    scanLines isTarget base number (line :: lines) =
      match scanLine isTarget base line with
      | .error cause => .error ⟨number, String.ofList (trim line), cause⟩
      | .ok first => (scanLines isTarget base (number + 1) lines).map (first ++ ·) := by
  rw [scanLines]
  cases scanLine isTarget base line with
  | error cause => rfl
  | ok first => cases scanLines isTarget base (number + 1) lines <;> rfl

/-- Lines that can all be read are read as what they contribute one after another. -/
theorem scanLines_eq_ok {isTarget : RepoPath → Bool} {base : String} {lines : List (List Char)}
    (h : ∀ line ∈ lines, ∃ out, scanLine isTarget base line = .ok out) (number : Nat) :
    scanLines isTarget base number lines =
      .ok (.concat (lines.map (outputOf isTarget base))) := by
  induction lines generalizing number with
  | nil => rfl
  | cons line lines ih =>
    obtain ⟨out, hline⟩ := h line List.mem_cons_self
    have hlines := ih (fun l hl => h l (List.mem_cons_of_mem line hl)) (number + 1)
    rw [scanLines_cons, hline, hlines, List.map_cons, outputOf_eq hline, ScanOutput.concat_cons]
    rfl

/-- A line that cannot be read spoils the lines that it stands among. -/
theorem scanLines_eq_error {isTarget : RepoPath → Bool} {base : String}
    {lines : List (List Char)} {line : List Char} {e : LineError} (hmem : line ∈ lines)
    (h : scanLine isTarget base line = .error e) (number : Nat) :
    ∃ e, scanLines isTarget base number lines = .error e := by
  induction lines generalizing number with
  | nil => cases hmem
  | cons first lines ih =>
    rw [scanLines_cons]
    cases hfirst : scanLine isTarget base first with
    | error cause => exact ⟨_, rfl⟩
    | ok out =>
      have hlines : line ∈ lines := by
        rcases List.mem_cons.1 hmem with rfl | hlines
        · rw [hfirst] at h
          cases h
        · exact hlines
      obtain ⟨e', he'⟩ := ih hlines (number + 1)
      rw [he']
      exact ⟨e', rfl⟩

/-- A list of lines is read exactly when each of its lines is. -/
theorem scanLines_eq_ok_iff {isTarget : RepoPath → Bool} {base : String}
    {lines : List (List Char)} {number : Nat} {out : ScanOutput} :
    scanLines isTarget base number lines = .ok out ↔
      (∀ line ∈ lines, ∃ o, scanLine isTarget base line = .ok o) ∧
        out = .concat (lines.map (outputOf isTarget base)) := by
  constructor
  · intro h
    have hall : ∀ line ∈ lines, ∃ o, scanLine isTarget base line = .ok o := by
      intro line hline
      cases hscan : scanLine isTarget base line with
      | ok o => exact ⟨o, rfl⟩
      | error e =>
        obtain ⟨e', he'⟩ := scanLines_eq_error hline hscan number
        rw [h] at he'
        cases he'
    refine ⟨hall, ?_⟩
    rw [scanLines_eq_ok hall number] at h
    cases h
    rfl
  · rintro ⟨hall, rfl⟩
    exact scanLines_eq_ok hall number

/-- A line and the lines behind it are read if the line is and they are. -/
theorem scanLines_cons_eq_ok_iff {isTarget : RepoPath → Bool} {base : String} {line : List Char}
    {lines : List (List Char)} {number : Nat} {out : ScanOutput} :
    scanLines isTarget base number (line :: lines) = .ok out ↔
      ∃ first others, scanLine isTarget base line = .ok first ∧
        scanLines isTarget base (number + 1) lines = .ok others ∧ out = first ++ others := by
  rw [scanLines_cons]
  cases scanLine isTarget base line with
  | error e => exact iff_of_false nofun nofun
  | ok first =>
    cases scanLines isTarget base (number + 1) lines with
    | error e => exact iff_of_false nofun nofun
    | ok others => simp [Except.map, eq_comm]

/-- A list of lines fails with the first of them that cannot be read, and with its number. -/
theorem scanLines_eq_error_iff {isTarget : RepoPath → Bool} {base : String}
    {lines : List (List Char)} {number : Nat} {e : ScanError} :
    scanLines isTarget base number lines = .error e ↔
      ∃ earlier line later cause, lines = earlier ++ line :: later ∧
        (∀ l ∈ earlier, ∃ out, scanLine isTarget base l = .ok out) ∧
        scanLine isTarget base line = .error cause ∧
        e = ⟨number + earlier.length, String.ofList (trim line), cause⟩ := by
  induction lines generalizing number with
  | nil =>
    refine iff_of_false nofun ?_
    rintro ⟨earlier, line, later, cause, hlines, -⟩
    exact List.append_ne_nil_of_right_ne_nil earlier (List.cons_ne_nil line later) hlines.symm
  | cons first lines ih =>
    rw [scanLines_cons]
    cases hfirst : scanLine isTarget base first with
    | error cause =>
      constructor
      · intro h
        cases h
        exact ⟨[], first, lines, cause, rfl, nofun, hfirst, rfl⟩
      · rintro ⟨earlier, line, later, cause', hlines, hearlier, hline, rfl⟩
        cases earlier with
        | nil =>
          cases hlines
          rw [hfirst] at hline
          cases hline
          rfl
        | cons l ls =>
          cases hlines
          obtain ⟨out, hout⟩ := hearlier first List.mem_cons_self
          rw [hfirst] at hout
          cases hout
    | ok out =>
      have hrest : (scanLines isTarget base (number + 1) lines).map (out ++ ·) = .error e ↔
          scanLines isTarget base (number + 1) lines = .error e := by
        cases scanLines isTarget base (number + 1) lines with
        | error e' => exact Iff.rfl
        | ok others => exact iff_of_false nofun nofun
      dsimp only
      rw [hrest, ih]
      constructor
      · rintro ⟨earlier, line, later, cause, rfl, hearlier, hline, rfl⟩
        refine ⟨first :: earlier, line, later, cause, rfl, ?_, hline, ?_⟩
        · exact List.forall_mem_cons.2 ⟨⟨out, hfirst⟩, hearlier⟩
        · rw [List.length_cons, Nat.add_right_comm, Nat.add_assoc]
      · rintro ⟨earlier, line, later, cause, hlines, hearlier, hline, rfl⟩
        cases earlier with
        | nil =>
          cases hlines
          rw [hfirst] at hline
          cases hline
        | cons l ls =>
          cases hlines
          refine ⟨ls, line, later, cause, rfl, (List.forall_mem_cons.1 hearlier).2, hline, ?_⟩
          rw [List.length_cons, Nat.add_right_comm, Nat.add_assoc]

/-- Lines that are read as the same contribute the same. -/
theorem outputOf_congr {isTarget isTarget' : RepoPath → Bool} {base : String}
    {line line' : List Char} (h : scanLine isTarget base line = scanLine isTarget' base line') :
    outputOf isTarget base line = outputOf isTarget' base line' := by
  unfold outputOf
  rw [h]

/-- The records of an output are those that some line contributes. -/
theorem mem_records_scanLines {isTarget : RepoPath → Bool} {base : String}
    {lines : List (List Char)} {number : Nat} {out : ScanOutput}
    (h : scanLines isTarget base number lines = .ok out) {r : Record} :
    r ∈ out.records ↔
      ∃ line ∈ lines, ∃ before after, Attributed (isTarget · = true) base (trim line) before after ∧
        r.file = fileOf base before ∧ Says (trim after) r.region ∧
        r.raw = String.ofList (trim line) := by
  obtain ⟨hall, rfl⟩ := scanLines_eq_ok_iff.1 h
  simp only [ScanOutput.concat, List.mem_flatMap, List.mem_map]
  constructor
  · rintro ⟨_, ⟨line, hline, rfl⟩, hr⟩
    obtain ⟨o, ho⟩ := hall line hline
    rw [outputOf_eq ho] at hr
    cases scanLine_eq_ok_iff.1 ho with
    | blank => cases hr
    | unmatched => cases hr
    | record hatt hsaid =>
      rw [List.mem_singleton] at hr
      subst hr
      exact ⟨line, hline, _, _, hatt, rfl, hsaid, rfl⟩
  · rintro ⟨line, hline, before, after, hatt, hfile, hsaid, hraw⟩
    have ho := scanLine_eq_ok_iff.2 (Contributes.record hatt hsaid)
    refine ⟨_, ⟨line, hline, rfl⟩, ?_⟩
    rw [outputOf_eq ho, ← hfile, ← hraw]
    exact List.mem_singleton.2 rfl

/-! ## Whole outputs -/

/-- A run over several files is read as its lines, and then the files that no line names. -/
theorem batch_eq_ok {stdout base : String} {targets : FileSet} {out : ScanOutput}
    (h : scanOutput targets.contains base stdout = .ok out) :
    batch stdout targets base = .ok ⟨out.records ++
      (targets.toList.filter fun t => !(out.records.map Record.file).contains t).map .clean,
      out.unmatched⟩ := by
  unfold batch
  rw [h]
  rfl

theorem batch_eq_error {stdout base : String} {targets : FileSet} {e : ScanError}
    (h : scanOutput targets.contains base stdout = .error e) :
    batch stdout targets base = .error e := by
  unfold batch
  rw [h]
  rfl

/-- A run over several files can be read when its lines can, and then is read as its lines and as
the files that none of their records is about. -/
theorem batch_eq_ok_iff {stdout base : String} {targets : FileSet} {all : ScanOutput} :
    batch stdout targets base = .ok all ↔
      ∃ out, scanOutput targets.contains base stdout = .ok out ∧
        all = ⟨out.records ++
          (targets.toList.filter fun t => t ∉ out.records.map Record.file).map .clean,
          out.unmatched⟩ := by
  have hsilent : ∀ files : List RepoPath,
      (targets.toList.filter fun t => !files.contains t) =
        targets.toList.filter fun t => t ∉ files := by
    intro files
    apply List.filter_congr
    intro t _
    rw [List.contains_eq_mem, decide_not]
  cases hscan : scanOutput targets.contains base stdout with
  | error e =>
    rw [batch_eq_error hscan]
    exact iff_of_false nofun nofun
  | ok out =>
    rw [batch_eq_ok hscan, hsilent]
    simp [eq_comm]

/-- A run over several files fails where its lines do. -/
theorem batch_eq_error_iff {stdout base : String} {targets : FileSet} {e : ScanError} :
    batch stdout targets base = .error e ↔ scanOutput targets.contains base stdout = .error e := by
  constructor
  · intro h
    cases hscan : scanOutput targets.contains base stdout with
    | error e' =>
      rw [batch_eq_error hscan] at h
      exact h
    | ok out =>
      rw [batch_eq_ok hscan] at h
      cases h
  · exact batch_eq_error

/-- A run over one file is read as its lines, or as one clean record if there is none. -/
theorem single_eq_ok {stdout base : String} {file : RepoPath} {out : ScanOutput}
    (h : scanOutput (· == file) base stdout = .ok out) :
    single stdout file base =
      .ok ⟨if out.records = [] then [.clean file] else out.records, out.unmatched⟩ := by
  unfold single
  rw [h]
  cases hr : out.records with
  | nil => simp [bind, Except.bind, pure, Except.pure, hr]
  | cons r rs =>
    simp only [bind, Except.bind, pure, Except.pure, hr, List.isEmpty_cons, Bool.false_eq_true,
      if_false, reduceCtorEq]
    rw [← hr]

theorem single_eq_error {stdout base : String} {file : RepoPath} {e : ScanError}
    (h : scanOutput (· == file) base stdout = .error e) :
    single stdout file base = .error e := by
  unfold single
  rw [h]
  rfl

/-- Every record that a line stands behind is of a file that was looked for. -/
theorem isTarget_of_mem_records {isTarget : RepoPath → Bool} {base stdout : String}
    {out : ScanOutput} (h : scanOutput isTarget base stdout = .ok out) {r : Record}
    (hr : r ∈ out.records) : isTarget r.file = true := by
  obtain ⟨line, -, before, after, hatt, hfile, -⟩ := (mem_records_scanLines h).1 hr
  rw [hfile]
  exact hatt.mem

/-- A run over one file is read as a run over several files is, of which there is one. -/
theorem single_eq_batch (stdout : String) (file : RepoPath) (base : String) :
    single stdout file base = batch stdout (.ofList [file]) base := by
  have hsame : (FileSet.ofList [file]).contains = (· == file) := by
    funext p
    rw [Bool.eq_iff_iff, FileSet.contains_iff, FileSet.mem_ofList, List.mem_singleton, beq_iff_eq]
  cases h : scanOutput (· == file) base stdout with
  | error e =>
    rw [single_eq_error h]
    rw [← hsame] at h
    rw [batch_eq_error h]
  | ok out =>
    have hfile : ∀ r ∈ out.records, r.file = file := by
      intro r hr
      exact beq_iff_eq.1 (isTarget_of_mem_records h hr)
    rw [single_eq_ok h]
    rw [← hsame] at h
    rw [batch_eq_ok h]
    show _ = Except.ok (ScanOutput.mk (_ ++ ([file].filter _).map _) _)
    cases hrecords : out.records with
    | nil => rfl
    | cons r rs =>
      rw [hrecords] at hfile
      simp [hfile r List.mem_cons_self]

/-- Every file of a run has a record, and every record is of a file of the run. -/
theorem mem_files_batch {stdout base : String} {targets : FileSet} {out : ScanOutput}
    (h : batch stdout targets base = .ok out) {t : RepoPath} :
    (∃ r ∈ out.records, r.file = t) ↔ t ∈ targets := by
  obtain ⟨scanned, hscan, rfl⟩ := batch_eq_ok_iff.1 h
  constructor
  · rintro ⟨r, hr, rfl⟩
    rcases List.mem_append.1 hr with hr | hr
    · exact FileSet.contains_iff.1 (isTarget_of_mem_records hscan hr)
    · obtain ⟨t, ht, rfl⟩ := List.mem_map.1 hr
      exact (List.mem_filter.1 ht).1
  · intro ht
    by_cases hseen : t ∈ scanned.records.map Record.file
    · obtain ⟨r, hr, hfile⟩ := List.mem_map.1 hseen
      exact ⟨r, List.mem_append_left _ hr, hfile⟩
    · refine ⟨.clean t, List.mem_append_right _ (List.mem_map_of_mem ?_), rfl⟩
      exact List.mem_filter.2 ⟨ht, decide_eq_true hseen⟩

/-- A file has a record with an error exactly when a line that belongs to it has an error node. -/
theorem hasError_batch_iff {stdout base : String} {targets : FileSet} {out : ScanOutput}
    (h : batch stdout targets base = .ok out) {t : RepoPath} :
    (∃ r ∈ out.records, r.file = t ∧ r.hasError = true) ↔
      ∃ line ∈ lines stdout.toList, ∃ before after,
        Attributed (· ∈ targets) base (trim line) before after ∧ fileOf base before = t ∧
        ∃ region, IsErrorNode (trim after) region := by
  obtain ⟨scanned, hscan, rfl⟩ := batch_eq_ok_iff.1 h
  constructor
  · rintro ⟨r, hr, rfl, herror⟩
    rcases List.mem_append.1 hr with hr | hr
    · obtain ⟨line, hline, before, after, hatt, hfile, hsaid, -⟩ :=
        (mem_records_scanLines hscan).1 hr
      obtain ⟨region, hregion⟩ := Option.isSome_iff_exists.1 herror
      rw [hregion] at hsaid
      exact ⟨line, hline, before, after, (attributed_congr fun p => FileSet.contains_iff).1 hatt,
        hfile.symm, region, hsaid⟩
    · obtain ⟨t, -, rfl⟩ := List.mem_map.1 hr
      cases herror
  · rintro ⟨line, hline, before, after, hatt, rfl, region, hnode⟩
    refine ⟨⟨fileOf base before, some region, String.ofList (trim line)⟩, ?_, rfl, rfl⟩
    apply List.mem_append_left
    exact (mem_records_scanLines hscan).2 ⟨line, hline, before, after,
      (attributed_congr fun p => FileSet.contains_iff).2 hatt, rfl, hnode, rfl⟩

end Scan

end ParseAudit
