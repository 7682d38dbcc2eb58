import ParseAudit.Proofs.Selection.Resolved
import ParseAudit.Proofs.Tree.Writing
/-!
# Lists that were written

A set of files that was written to a list file is read back from it, one name from each line.  Names
come back as they were if they are legible.

* `mem_entries_text_iff`: the entries of a list that was written;
* `Relisted`: the names that the lines of names are read as;
* `resolve_written`: legible names come back, and of others each line does;
* `written_name_lost`: a name with a blank at its end or a line feed does not come back, and no name
  does if the list is looked for elsewhere.
-/

namespace ParseAudit.ListFile

open Chars ParseAudit.Action

/-! ## Lists as texts -/

theorem toList_text (files : FileSet) :
    (text files).toList = (files.toList.map (·.text.toList)).flatMap (· ++ ['\n']) := by
  unfold text
  rw [String.toList_join]
  simp [List.flatMap, Function.comp_def]

/-- The trimmed entries of a list that was written are the trimmed lines of the names in it, blank
ones apart. -/
theorem mem_entries_text_iff {files : FileSet} {entry : String} :
    (∃ e ∈ entries (text files), Text.trim e = entry) ↔
      ∃ t ∈ files, ∃ line ∈ lines (t.text.toList ++ ['\n']), ¬AllBlank line ∧
        entry = String.ofList (trim line) := by
  have hentry : ∀ {e : String}, e ∈ entries (text files) ↔
      ∃ line ∈ lines (text files).toList, ¬AllBlank line ∧ e = String.ofList (trimEnd line) := by
    intro e
    simp only [entries, Text.lines, List.mem_filter, List.mem_map, Bool.not_eq_true']
    constructor
    · rintro ⟨⟨_, ⟨line, hline, rfl⟩, rfl⟩, hblank⟩
      refine ⟨line, hline, ?_, by rw [Text.trimEnd, String.toList_ofList]⟩
      intro hall
      rw [Text.trimEnd, String.toList_ofList, trimEnd_eq_nil_iff.2 hall] at hblank
      cases hblank
    · rintro ⟨line, hline, hblank, rfl⟩
      refine ⟨⟨_, ⟨line, hline, rfl⟩, by rw [Text.trimEnd, String.toList_ofList]⟩, ?_⟩
      rw [← Bool.not_eq_true, isBlankText_iff, String.toList_ofList]
      intro hall
      obtain ⟨b, hb, hs⟩ := exists_trimEnd line
      exact hblank (hs ▸ hall.append hb)
  simp only [hentry, toList_text, mem_lines_flatMap_iff, List.mem_map]
  constructor
  · rintro ⟨e, ⟨line, ⟨_, ⟨t, ht, rfl⟩, hline⟩, hblank, rfl⟩, rfl⟩
    refine ⟨t, ht, line, hline, hblank, ?_⟩
    rw [Text.trim, String.toList_ofList, trim_trimEnd]
  · rintro ⟨t, ht, line, hline, hblank, rfl⟩
    refine ⟨_, ⟨line, ⟨_, ⟨t, ht, rfl⟩, hline⟩, hblank, rfl⟩, ?_⟩
    rw [Text.trim, String.toList_ofList, trim_trimEnd]

end ParseAudit.ListFile

namespace ParseAudit.Selection

open Chars ParseAudit.Action

variable {base path place : String} {source : FileSource} {files : FileSet}
  {before after : FileTree}

/-- A list that was written is resolved to the names in it, line by line. -/
theorem mem_resolve_written_iff {p : RepoPath} :
    p ∈ FileSet.ofList ((ListFile.entries (ListFile.text files)).map fun e =>
        .normalize (Text.trim e) base) ↔
      ∃ t ∈ files, ∃ line ∈ lines (t.text.toList ++ ['\n']), ¬AllBlank line ∧
        p = .normalize (String.ofList (trim line)) base := by
  rw [FileSet.mem_ofList, List.mem_map]
  constructor
  · rintro ⟨e, he, rfl⟩
    obtain ⟨t, ht, line, hline, hblank, heq⟩ := ListFile.mem_entries_text_iff.1 ⟨e, he, rfl⟩
    exact ⟨t, ht, line, hline, hblank, by rw [heq]⟩
  · rintro ⟨t, ht, line, hline, hblank, rfl⟩
    obtain ⟨e, he, heq⟩ := ListFile.mem_entries_text_iff.2 ⟨t, ht, line, hline, hblank, rfl⟩
    exact ⟨e, he, by rw [heq]⟩

/-- A plain name is the one line that it is written to. -/
theorem written_of_isPlain {t : RepoPath} (ht : Scan.IsPlain base t) {p : RepoPath} :
    (∃ line ∈ lines (t.text.toList ++ ['\n']), ¬AllBlank line ∧
      p = .normalize (String.ofList (trim line)) base) ↔ p = t := by
  have hreturn : t.text.toList.getLast? ≠ some '\r' := by
    intro hlast
    have hblank := ht.trimmed.last _ hlast
    cases hblank
  have hlines : lines (t.text.toList ++ ['\n']) = [t.text.toList] := by
    rw [lines_append_feed ht.feed, withoutReturn_eq_self hreturn]
    rfl
  have hname : RepoPath.normalize (String.ofList (trim t.text.toList)) base = t := by
    rw [ht.trimmed.trim_eq, String.ofList_toList]
    exact ht.normal
  rw [hlines]
  constructor
  · rintro ⟨line, hline, -, rfl⟩
    rw [List.mem_singleton.1 hline, hname]
  · rintro rfl
    exact ⟨_, List.mem_singleton.2 rfl,
      fun hblank => ht.ne_nil (ht.trimmed.eq_nil_of_allBlank hblank), hname.symm⟩

/-- A list is written to a name that is free. -/
theorem write_list_gives {t : FileTree} {name : FileName} {directory : List FileName}
    (h : FileTree.IsName path name) (hroot : t.root.isDirectory = true)
    (hplace : t.startOf path = directory) (hdirectory : t.isDirectoryAt directory = true)
    (hnone : t.node? (directory ++ [name]) = none) (files : FileSet) :
    (ListFile.write path files).Gives t ()
      (t.put directory name (.file (Octets.ofText (ListFile.text files)) false)) :=
  gives_bind_iff.2 ⟨(), _, h.writeFile_gives hroot (h.write_eq_put hplace hdirectory hnone _) _,
    quiet_log _ _ _ _⟩

/-- A list that was written leads to a file with the names in it. -/
theorem nodeOf_of_write_list (h : (ListFile.write path files).Gives before () after) :
    ∃ executable,
      after.nodeOf path = .ok (.file (Octets.ofText (ListFile.text files)) executable) := by
  unfold ListFile.write at h
  obtain ⟨_, mid, hwrite, hlog⟩ := gives_bind_iff.1 h
  obtain ⟨-, rfl⟩ := hlog.unique (quiet_log _ _ _ mid)
  obtain ⟨_, start, -, hchange⟩ := gives_bind_iff.1 hwrite
  exact FileTree.nodeOf_of_write (gives_change_iff.1 hchange)

/-- The names that are read from what names were written as: from each line of a name, without the
blanks at its end, the path that it is normalised to. -/
def Relisted (base : String) (files : FileSet) (p : RepoPath) : Prop :=
  ∃ t ∈ files, ∃ line ∈ lines (t.text.toList ++ ['\n']),
    ¬AllBlank line ∧ p = .normalize (String.ofList (trimEnd line)) base

/-- A set of files that was written to a list file and is read again from it.  Where the place of
the list file, seen from the base directory, leads to what the path that was written leads to, every
legible name comes back, and if all names are legible the set is the same.  Of names that are not
misread, none of whose lines starts with a blank, each line comes back, but for the blanks at its
end. -/
theorem resolve_written {tree : FileTree}
    (hresolve : (resolve tree base source).outcome = .ok files)
    (hwrite : (ListFile.write path files).Gives before () after)
    (hplace : after.nodeOf (RepoPath.joinText base place) = after.nodeOf path) :
    ∃ again, (resolve after base ⟨[], some place, .paths⟩).outcome = .ok again ∧
      (∀ t ∈ files, IsLegible base t → t ∈ again) ∧
      ((∀ t ∈ files, IsLegible base t) → again = files) ∧
      ((∀ t ∈ files, ¬t.IsMisread base ∧
          ∀ line ∈ lines (t.text.toList ++ ['\n']), ∀ c ∈ line.head?, isBlank c = false) →
        ∀ p, p ∈ again ↔ Relisted base files p) := by
  obtain ⟨executable, hnode⟩ := nodeOf_of_write_list hwrite
  have hplain : ∀ t ∈ files, IsLegible base t → Scan.IsPlain base t :=
    fun t ht hlegible => isPlain_of_mem_resolve hresolve ht hlegible
  refine ⟨_, resolve_list_eq_ok (hplace.trans hnode), ?_, ?_, ?_⟩
  · intro t ht hlegible
    rw [mem_resolve_written_iff]
    exact ⟨t, ht, (written_of_isPlain (hplain t ht hlegible)).2 rfl⟩
  · intro hall
    apply FileSet.ext
    intro p
    rw [mem_resolve_written_iff]
    constructor
    · rintro ⟨t, ht, hline⟩
      rwa [(written_of_isPlain (hplain t ht (hall t ht))).1 hline]
    · intro hp
      exact ⟨p, hp, (written_of_isPlain (hplain p hp (hall p hp))).2 rfl⟩
  · intro hall p
    rw [mem_resolve_written_iff]
    have htrim : ∀ t ∈ files, ∀ line ∈ lines (t.text.toList ++ ['\n']), trim line = trimEnd line :=
      fun t ht line hline => congrArg trimEnd (trimStart_eq_self ((hall t ht).2 line hline))
    constructor
    · rintro ⟨t, ht, line, hline, hblank, rfl⟩
      exact ⟨t, ht, line, hline, hblank, by rw [htrim t ht line hline]⟩
    · rintro ⟨t, ht, line, hline, hblank, rfl⟩
      exact ⟨t, ht, line, hline, hblank, by rw [htrim t ht line hline]⟩

/-- Two files whose names hold blanks, written to the root directory. -/
theorem resolve_written_two :
    let tree : FileTree := ⟨.directory (["a b", "c d\r e"].map fun name =>
      (Octets.ofText name, .file [] false)), []⟩
    let files : FileSet := .ofList [⟨"a b"⟩, ⟨"c d\r e"⟩]
    ∃ after, (resolve tree "/" ⟨["*"], none, .patterns⟩).outcome = .ok files ∧
      (ListFile.write "/l" files).Gives tree () after ∧
      after.nodeOf (RepoPath.joinText "/" "/l") = after.nodeOf "/l" ∧
      (∀ t ∈ files, IsLegible "/" t) ∧
      (resolve after "/" ⟨[], some "/l", .paths⟩).outcome = .ok files := by
  intro tree files
  have hresolve : (resolve tree "/" ⟨["*"], none, .patterns⟩).outcome = .ok files := by
    exact resolve_root_eq_ok (by decide +kernel)
  have hname : FileTree.IsName "/l" (Octets.ofText "l") := by decide +kernel
  have hstart := tree.startOf_eq_nil "/l" (by decide +kernel)
  have hwrite := write_list_gives hname rfl hstart rfl (by decide +kernel) files
  have hjoin : RepoPath.joinText "/" "/l" = "/l" := by decide +kernel
  let after :=
    tree.put [] (Octets.ofText "l") (.file (Octets.ofText (ListFile.text files)) false)
  have hplace := congrArg after.nodeOf hjoin
  have hlegible : ∀ t ∈ files, IsLegible "/" t := by
    have hall : ∀ t ∈ files.toList, IsLegible "/" t := by decide +kernel
    exact hall
  obtain ⟨again, hagain, -, hsame, -⟩ := resolve_written hresolve hwrite hplace
  rw [hsame hlegible] at hagain
  exact ⟨_, hresolve, hwrite, hplace, hlegible, hagain⟩

/-- A name with a blank at its end comes back without it, and one with a line feed as two.  A list
that is written from one directory and looked for in another is not there. -/
theorem written_name_lost :
    let tree (directory : List FileName) : FileTree := ⟨.directory [
      (Octets.ofText "a ", .file [] false), (Octets.ofText "b", .file [] false),
      (Octets.ofText "c\nd", .file [] false), (Octets.ofText "d", .emptyDirectory)], directory⟩
    (∃ after, (resolve (tree []) "/" ⟨["a*"], none, .patterns⟩).outcome = .ok (.ofList [⟨"a "⟩]) ∧
      (ListFile.write "/l" (.ofList [⟨"a "⟩])).Gives (tree []) () after ∧
      (resolve after "/" ⟨[], some "/l", .paths⟩).outcome = .ok (.ofList [⟨"a"⟩])) ∧
    (∃ after,
      (resolve (tree []) "/" ⟨["c*"], none, .patterns⟩).outcome = .ok (.ofList [⟨"c\nd"⟩]) ∧
      (ListFile.write "/l" (.ofList [⟨"c\nd"⟩])).Gives (tree []) () after ∧
      (resolve after "/" ⟨[], some "/l", .paths⟩).outcome = .ok (.ofList [⟨"c"⟩, ⟨"d"⟩])) ∧
    (∃ after,
      (resolve (tree [Octets.ofText "d"]) "/" ⟨["b"], none, .patterns⟩).outcome =
        .ok (.ofList [⟨"b"⟩]) ∧
      (ListFile.write "l" (.ofList [⟨"b"⟩])).Gives (tree [Octets.ofText "d"]) () after ∧
      (resolve after "/" ⟨[], some "l", .paths⟩).outcome = .ok (.ofList [])) ∧
    FileSet.ofList [⟨"a"⟩] ≠ FileSet.ofList [⟨"a "⟩] ∧
    FileSet.ofList [⟨"c"⟩, ⟨"d"⟩] ≠ FileSet.ofList [⟨"c\nd"⟩] ∧
    FileSet.ofList [] ≠ FileSet.ofList [⟨"b"⟩] := by
  intro tree
  have hdifferent : ∀ {a b : FileSet}, a.toList ≠ b.toList → a ≠ b :=
    fun hne heq => hne (congrArg FileSet.toList heq)
  have hname : FileTree.IsName "/l" (Octets.ofText "l") := by decide +kernel
  have hstart : ∀ t : FileTree, t.startOf "/l" = [] :=
    fun t => t.startOf_eq_nil "/l" (by decide +kernel)
  have hjoin : RepoPath.joinText "/" "/l" = "/l" := by decide +kernel
  have hcomesBack : ∀ files again, ((ListFile.entries (ListFile.text files)).map fun e =>
      RepoPath.normalize (Text.trim e) "/") = again → ∃ after,
        (ListFile.write "/l" files).Gives (tree []) () after ∧
        (resolve after "/" ⟨[], some "/l", .paths⟩).outcome = .ok (.ofList again) := by
    rintro files _ rfl
    have hwrite :=
      write_list_gives (t := tree []) hname rfl (hstart _) rfl (by decide +kernel) files
    obtain ⟨_, hnode⟩ := nodeOf_of_write_list hwrite
    exact ⟨_, hwrite, resolve_list_eq_ok ((congrArg (FileTree.nodeOf _) hjoin).trans hnode)⟩
  refine ⟨?_, ?_, ?_, hdifferent (by decide), hdifferent (by decide), hdifferent (by decide)⟩
  · obtain ⟨after, hwrite, hagain⟩ := hcomesBack (.ofList [⟨"a "⟩]) [⟨"a"⟩] (by decide +kernel)
    exact ⟨after, resolve_root_eq_ok (by decide +kernel), hwrite, hagain⟩
  · obtain ⟨after, hwrite, hagain⟩ := hcomesBack (.ofList [⟨"c\nd"⟩]) [⟨"c"⟩, ⟨"d"⟩]
      (by decide +kernel)
    exact ⟨after, resolve_root_eq_ok (by decide +kernel), hwrite, hagain⟩
  · let after := (tree [Octets.ofText "d"]).put [Octets.ofText "d"] (Octets.ofText "l")
      (.file (Octets.ofText (ListFile.text (.ofList [⟨"b"⟩]))) false)
    have hwrite :
        (ListFile.write "l" (.ofList [⟨"b"⟩])).Gives (tree [Octets.ofText "d"]) () after :=
      write_list_gives (by decide +kernel) rfl (by decide +kernel) (by decide +kernel)
        (by decide +kernel) _
    refine ⟨after, resolve_root_eq_ok (by decide +kernel), hwrite, ?_⟩
    have hmissing : after.nodeOf "/l" = .error .notFound :=
      hname.nodeOf_eq_notFound (hstart after) (by decide +kernel) (by decide +kernel)
    refine resolve_list_of_missing (e := .notFound) ?_
    rw [show RepoPath.joinText "/" "l" = "/l" by decide +kernel]
    exact hmissing

end ParseAudit.Selection
