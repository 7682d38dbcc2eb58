import ParseAudit.Proofs.RepoPath.Twice
import ParseAudit.Proofs.Scan.Accounting
import ParseAudit.Proofs.Scan.Decoding
import ParseAudit.Proofs.Selection.Resolved
/-!
# Errors in selected files

A parser echoes the name of a file and puts an error node behind it.  The name that a file was
selected by and the name that is recovered from the line are one, so the error is counted, unless a
longer start of the line names another selected file.

* `attributed_echo`: the line belongs to the file, or to one with a longer name;
* `scanLine_echo_longer`: what the line says of a file with a longer name;
* `echoed_error_counted`: what becomes of an error in a selected file;
* `echoed_error_lost`: names with a blank at an end, and names that go on like an error node.
-/

namespace ParseAudit.Scan

open Chars Line Anchored

/-! ## Outputs of one line -/

/-- The output of one line is read as this line, and then the silent files. -/
theorem batch_line_eq_ok {line : List Char} {base : String} {files : FileSet} {out : ScanOutput}
    (hfeed : '\n' ∉ line) (hne : line ≠ []) (h : scanLine files.contains base line = .ok out) :
    ∃ all, batch (String.ofList line) files base = .ok all ∧
      ∀ r ∈ out.records, r ∈ all.records := by
  have hscan : scanOutput files.contains base (String.ofList line) = .ok out := by
    unfold scanOutput
    rw [String.toList_ofList, lines_of_not_mem hfeed hne]
    refine scanLines_eq_ok_iff.2 ⟨?_, ?_⟩
    · intro l hl
      rw [List.mem_singleton.1 hl]
      exact ⟨out, h⟩
    · rw [List.map_singleton, outputOf_eq h]
      simp [ScanOutput.concat]
  exact ⟨_, batch_eq_ok hscan, fun r hr => List.mem_append_left _ hr⟩

/-- An output of one line that cannot be read is not read. -/
theorem batch_line_eq_error {line : List Char} {base : String} {files : FileSet} {e : LineError}
    (hfeed : '\n' ∉ line) (hne : line ≠ []) (h : scanLine files.contains base line = .error e) :
    ∃ e, batch (String.ofList line) files base = .error e := by
  have hscan : ∃ e, scanOutput files.contains base (String.ofList line) = .error e := by
    unfold scanOutput
    rw [String.toList_ofList, lines_of_not_mem hfeed hne]
    exact scanLines_eq_error List.mem_cons_self h 1
  obtain ⟨e, he⟩ := hscan
  exact ⟨e, batch_eq_error he⟩

/-! ## The line for a file -/

/-- The line in which a parser names a file and an error node in it. -/
def echo (t : RepoPath) (label : String) (start stop : Point) : Entry :=
  ⟨t, some ⟨' ', [], label, start, stop⟩⟩

section Echo

variable {t : RepoPath} {label : String} {start stop : Point} {base : String} {files : FileSet}
  {before after : List Char}

theorem line_echo (t : RepoPath) (label : String) (start stop : Point) :
    ∃ node, (echo t label start stop).line = t.text.toList ++ ' ' :: '(' :: node ∧
      (echo t label start stop).line.getLast? = some ')' := by
  refine ⟨_, rfl, ?_⟩
  simp [echo, Entry.line, Entry.tail, List.getLast?_append, List.getLast?_cons, getLast?_printed]

/-- A node with a proper label can be printed behind a blank. -/
theorem printable_echo
    (hlabel : label.toList ≠ [] ∧ Trimmed label.toList ∧ '\n' ∉ label.toList) :
    ∀ n ∈ (echo t label start stop).node, n.Printable := by
  intro n hn
  cases hn
  exact ⟨.inl rfl, ⟨List.not_mem_nil, List.not_mem_nil⟩, hlabel⟩

/-- The line belongs to the file, or to one that a longer start of the line names. -/
theorem attributed_echo (ht : IsPlain base t) (hmem : t ∈ files)
    (hlabel : label.toList ≠ [] ∧ Trimmed label.toList ∧ '\n' ∉ label.toList)
    (hatt : Attributed (· ∈ files) base (echo t label start stop).line before after) :
    before = t.text.toList ∨ ∃ more, before = t.text.toList ++ ' ' :: '(' :: more := by
  obtain ⟨node, hline, -⟩ := line_echo t label start stop
  have hown := isCut_file (e := echo t label start stop) ht (printable_echo hlabel)
  have hreach : t.text.toList.length ≤ before.length := by
    by_contra hshort
    refine hatt.longest _ _ hown (Nat.not_le.1 hshort) ?_
    rw [show fileOf base (echo t label start stop).file.text.toList = t from fileOf_text ht]
    exact hmem
  have happ := hatt.cut.append
  rw [hline] at happ
  obtain ⟨more, rfl, hmore⟩ := exists_overlap happ hreach
  match more with
  | [] => exact .inl (List.append_nil _)
  | [c] =>
    -- A cut right in front of the node does not stand before a gap.
    rw [List.singleton_append, List.cons.injEq] at hmore
    have hgap : isGap '(' = true := hatt.cut.gap '(' (by rw [← hmore.2]; rfl)
    cases hgap
  | c :: d :: more =>
    rw [List.cons_append, List.cons_append, List.cons.injEq, List.cons.injEq] at hmore
    obtain ⟨rfl, rfl, -⟩ := hmore
    exact .inr ⟨more, rfl⟩

/-- The line of the file itself is read as its error. -/
theorem scanLine_echo_own (ht : IsPlain base t) (hmem : t ∈ files)
    (hlabel : label.toList ≠ [] ∧ Trimmed label.toList ∧ '\n' ∉ label.toList)
    (hatt : Attributed (· ∈ files) base (echo t label start stop).line t.text.toList after) :
    scanLine files.contains base (echo t label start stop).line =
      .ok ⟨[(echo t label start stop).record], []⟩ := by
  apply scanLine_printed (e := echo t label start stop) ht (printable_echo hlabel) hmem
  intro before' after' hcut hlonger
  refine hatt.longest before' after' hcut ?_
  obtain ⟨b, -, hb⟩ := exists_trimEnd before'
  have hlength := congrArg List.length hb
  rw [List.length_append] at hlength
  exact Nat.lt_of_lt_of_le hlonger (by omega)

/-- Trimming a part at the end keeps its last character, unless that is a blank. -/
theorem getLast?_trim_of_append {front back : List Char} {c : Char} (hback : back ≠ [])
    (h : (front ++ back).getLast? = some c) (hc : isBlank c = false) :
    (trim back).getLast? = some c := by
  rw [List.getLast?_append_of_ne_nil _ hback] at h
  obtain ⟨b, b', hb, hb', hs⟩ := exists_trim back
  rcases List.eq_nil_or_concat b' with rfl | ⟨init, d, rfl⟩
  · rw [List.append_nil] at hs
    rcases List.eq_nil_or_concat (trim back) with hnil | ⟨init, d, hd⟩
    · rw [hnil, List.append_nil] at hs
      exact absurd (List.mem_of_mem_getLast? (hs ▸ h)) (hb.not_mem hc)
    · rw [hs, hd] at h
      rw [hd]
      simpa using h
  · rw [hs] at h
    obtain rfl : d = c := by simpa using h
    exact absurd (by simp) (hb'.not_mem hc)

/-- What a line says of a file that a longer start of it names: it has an error, unless the whole
line is the name. -/
theorem scanLine_echo_longer {out : ScanOutput}
    (hatt : Attributed (· ∈ files) base (trim (echo t label start stop).line) before after)
    (ht : IsPlain base t)
    (h : scanLine files.contains base (echo t label start stop).line = .ok out) :
    ∃ r ∈ out.records, r.file = fileOf base before ∧ (r.hasError = true ∨ after = []) := by
  obtain ⟨node, -, hlast⟩ := line_echo t label start stop
  have hline := (trimmed_line (e := echo t label start stop) ht).trim_eq
  rw [← contains_eq_mem] at hatt
  obtain ⟨region, hsaid, rfl⟩ := (scanLine_eq_ok_iff.1 h).of_attributed hatt
  refine ⟨_, List.mem_singleton.2 rfl, rfl, ?_⟩
  cases region with
  | some region => exact .inl rfl
  | none =>
    -- What stands behind the name ends as the line does, so it cannot say nothing.
    right
    by_contra hafter
    rw [← hline, ← hatt.cut.append] at hlast
    exact hsaid (getLast?_trim_of_append hafter hlast (by decide))

/-- A start of a line that goes on behind the name of a file names one that goes on in the same
way, or it lies in the base directory. -/
theorem prefix_fileOf (hnormal : RepoPath.normalize t.text base = t) (hread : ¬t.IsMisread base)
    (more : List Char) :
    t.text.toList ++ [' '] <+: (fileOf base (t.text.toList ++ ' ' :: '(' :: more)).text.toList ∨
      ((ofChars (trimEnd (t.text.toList ++ ' ' :: '(' :: more))).below?
        (ofChars base.toList)).isSome := by
  have htext := RepoPath.toChars_ofChars_of_not_isMisread hnormal hread
  have hback : ofChars (ofChars t.text.toList).toChars = ofChars t.text.toList := by rw [htext]
  -- The parenthesis is no blank, so trimming does not reach the name.
  have htrim : trimEnd (t.text.toList ++ ' ' :: '(' :: more) =
      t.text.toList ++ ' ' :: '(' :: trimEnd more := by
    simpa using trimEnd_append_cons (c := '(') rfl (t.text.toList ++ [' ']) more
  cases hbelow : (ofChars (trimEnd (t.text.toList ++ ' ' :: '(' :: more))).below?
      (ofChars base.toList) with
  | some segments => exact .inr rfl
  | none =>
    left
    unfold fileOf
    rw [RepoPath.toList_normalize, String.toList_ofList]
    unfold seenFrom
    rw [hbelow]
    dsimp only
    rw [htrim]
    have hproper := proper_ofChars t.text.toList
    have hinitial := prefix_toChars_ofChars hproper hback ('(' :: trimEnd more)
    rwa [htext] at hinitial

end Echo

/-! ## Selected files -/

/-- What becomes of an error that a parser reports for a selected file with a legible name.  The
line belongs to the file, and its error is counted, unless a longer start of the line names another
file of the set; then the output cannot be read, or that file has an error, or the whole line is the
name of that file. -/
theorem echoed_error_counted {tree : FileTree} {base : String} {source : FileSource}
    {files : FileSet} (hresolve : (Selection.resolve tree base source).outcome = .ok files)
    {t : RepoPath} (ht : t ∈ files) (hlegible : Selection.IsLegible base t) {label : String}
    (hlabel : label.toList ≠ [] ∧ Trimmed label.toList ∧ '\n' ∉ label.toList)
    (start stop : Point) :
    let e := echo t label start stop
    let result := batch (String.ofList e.line) files base
    ∃ before after, Attributed (· ∈ files) base e.line before after ∧
      ((before = t.text.toList ∧ ∃ out, result = .ok out ∧ e.record ∈ out.records) ∨
        ∃ u ∈ files, u = fileOf base before ∧ t.text.toList ++ [' ', '('] <+: before ∧
          (t.text.toList ++ [' '] <+: u.text.toList ∨
            ((ofChars (trimEnd before)).below? (ofChars base.toList)).isSome) ∧
          ((∃ error, result = .error error) ∨
            ∃ out, result = .ok out ∧ ∃ r ∈ out.records, r.file = u ∧
              (r.hasError = true ∨ after = []))) := by
  intro e result
  have hplain : IsPlain base t := Selection.isPlain_of_mem_resolve hresolve ht hlegible
  have hprintable : ∀ n ∈ e.node, n.Printable := printable_echo hlabel
  have hline : trim e.line = e.line := (trimmed_line (e := e) hplain).trim_eq
  have hlineFeed : '\n' ∉ e.line := feed_not_mem_line hplain hprintable
  have hne : e.line ≠ [] := fun hnil => hplain.ne_nil (List.append_eq_nil_iff.1 hnil).1
  obtain ⟨before, after, hatt⟩ : ∃ before after,
      Attributed (· ∈ files) base (trim e.line) before after := by
    rw [← contains_eq_mem]
    refine exists_attributed (hline.symm ▸ isCut_file hplain hprintable) ?_
    rw [fileOf_text hplain]
    exact FileSet.contains_iff.2 ht
  have hatt' := hatt
  rw [hline] at hatt
  refine ⟨before, after, hatt, ?_⟩
  rcases attributed_echo hplain ht hlabel hatt with rfl | ⟨more, rfl⟩
  · left
    have hown := scanLine_echo_own hplain ht hlabel hatt
    obtain ⟨out, hout, hrecords⟩ := batch_line_eq_ok hlineFeed hne hown
    exact ⟨rfl, out, hout, hrecords _ (List.mem_singleton.2 rfl)⟩
  · right
    refine ⟨_, hatt.mem, rfl, ?_, prefix_fileOf hplain.normal hlegible.read more, ?_⟩
    · exact (List.prefix_append_right_inj _).2 (List.prefix_append [' ', '('] _)
    · cases hscan : scanLine files.contains base e.line with
      | error cause => exact .inl (batch_line_eq_error hlineFeed hne hscan)
      | ok one =>
        obtain ⟨r, hr, hfile, herror⟩ := scanLine_echo_longer hatt' hplain hscan
        obtain ⟨out, hout, hrecords⟩ := batch_line_eq_ok hlineFeed hne hscan
        exact .inr ⟨out, hout, r, hrecords r hr, hfile, herror⟩

/-- A file with a blank in its name, beside one with a shorter and one with a longer name. -/
theorem echoed_error_counted_between :
    let tree : FileTree := ⟨.directory (["a", "a b", "a b (x"].map fun name =>
      (Octets.ofText name, .file [] false)), []⟩
    let files : FileSet := .ofList [⟨"a"⟩, ⟨"a b"⟩, ⟨"a b (x"⟩]
    let t : RepoPath := ⟨"a b"⟩
    let e := echo t "y z" ⟨0, 0⟩ ⟨0, 1⟩
    let result := batch (String.ofList e.line) files "/"
    (Selection.resolve tree "/" ⟨["*"], none, .patterns⟩).outcome = .ok files ∧
      t ∈ files ∧ Selection.IsLegible "/" t ∧
      ("y z".toList ≠ [] ∧ Trimmed "y z".toList ∧ '\n' ∉ "y z".toList) ∧
      ∃ before after, Attributed (· ∈ files) "/" e.line before after ∧
        ((before = t.text.toList ∧ ∃ out, result = .ok out ∧ e.record ∈ out.records) ∨
          ∃ u ∈ files, u = fileOf "/" before ∧ t.text.toList ++ [' ', '('] <+: before ∧
            (t.text.toList ++ [' '] <+: u.text.toList ∨
              ((ofChars (trimEnd before)).below? (ofChars "/".toList)).isSome) ∧
            ((∃ error, result = .error error) ∨
              ∃ out, result = .ok out ∧ ∃ r ∈ out.records, r.file = u ∧
                (r.hasError = true ∨ after = []))) := by
  intro tree files t e result
  have hresolve : (Selection.resolve tree "/" ⟨["*"], none, .patterns⟩).outcome = .ok files := by
    exact Selection.resolve_root_eq_ok (by decide +kernel)
  have ht : t ∈ files := by decide +kernel
  have hlegible : Selection.IsLegible "/" t := by decide +kernel
  have hlabel : "y z".toList ≠ [] ∧ Trimmed "y z".toList ∧ '\n' ∉ "y z".toList := by
    decide +kernel
  exact ⟨hresolve, ht, hlegible, hlabel,
    echoed_error_counted hresolve ht hlegible hlabel ⟨0, 0⟩ ⟨0, 1⟩⟩

/-- The output of a run says that there is an error in a file, or in one whose name goes on behind a
blank. -/
def TellsError (files : FileSet) (t : RepoPath) (result : Except ScanError ScanOutput) : Prop :=
  ∃ out, result = .ok out ∧ ∃ r ∈ out.records, r.hasError = true ∧
    (r.file = t ∨ r.file ∈ files ∧ t.text.toList ++ [' '] <+: r.file.text.toList)

theorem not_tellsError {files : FileSet} {t : RepoPath} {out : ScanOutput}
    (h : ∀ r ∈ out.records, r.hasError = true →
      r.file ≠ t ∧ ¬t.text.toList ++ [' '] <+: r.file.text.toList) :
    ¬TellsError files t (.ok out) := by
  rintro ⟨_, ⟨⟩, r, hr, herror, hself | ⟨-, hlonger⟩⟩
  · exact (h r hr herror).1 hself
  · exact (h r hr herror).2 hlonger

/-- Errors that are not told of: in a file with a blank in front of its name; in one that another
name goes on from, behind which the rest cannot be read; in one that the whole line goes on from;
and in one outside a base directory whose name goes on from it. -/
theorem echoed_error_lost :
    let tree (names : List String) : FileTree := ⟨.directory (names.map fun name =>
      (Octets.ofText name, .file (Octets.ofText "/o\ny\n") false)), []⟩
    let all : FileSource := ⟨["*"], none, .patterns⟩
    let line (t : RepoPath) (label : String) := String.ofList (echo t label ⟨0, 0⟩ ⟨0, 1⟩).line
    ((Selection.resolve (tree [" a"]) "/" all).outcome = .ok (.ofList [⟨" a"⟩]) ∧
      ¬TellsError (.ofList [⟨" a"⟩]) ⟨" a"⟩
        (batch (line ⟨" a"⟩ "ERROR") (.ofList [⟨" a"⟩]) "/")) ∧
    ((Selection.resolve (tree ["b", "b (x"]) "/" all).outcome = .ok (.ofList [⟨"b"⟩, ⟨"b (x"⟩]) ∧
      ¬TellsError (.ofList [⟨"b"⟩, ⟨"b (x"⟩]) ⟨"b"⟩
        (batch (line ⟨"b"⟩ "x y") (.ofList [⟨"b"⟩, ⟨"b (x"⟩]) "/")) ∧
    ((Selection.resolve (tree ["c", "c (x [0, 0] - [0, 1])"]) "/" all).outcome =
        .ok (.ofList [⟨"c"⟩, ⟨"c (x [0, 0] - [0, 1])"⟩]) ∧
      ¬TellsError (.ofList [⟨"c"⟩, ⟨"c (x [0, 0] - [0, 1])"⟩]) ⟨"c"⟩
        (batch (line ⟨"c"⟩ "x") (.ofList [⟨"c"⟩, ⟨"c (x [0, 0] - [0, 1])"⟩]) "/")) ∧
    ((Selection.resolve (tree ["l"]) "/o (x" ⟨[], some "/l", .paths⟩).outcome =
        .ok (.ofList [⟨"/o"⟩, ⟨"y"⟩]) ∧
      ¬TellsError (.ofList [⟨"/o"⟩, ⟨"y"⟩]) ⟨"/o"⟩
        (batch (line ⟨"/o"⟩ "x/y (z") (.ofList [⟨"/o"⟩, ⟨"y"⟩]) "/o (x")) := by
  intro tree all line
  refine ⟨⟨?_, ?_⟩, ⟨?_, ?_⟩, ⟨?_, ?_⟩, ?_, ?_⟩
  · exact Selection.resolve_root_eq_ok (by decide +kernel)
  · have hscan : batch (line ⟨" a"⟩ "ERROR") (.ofList [⟨" a"⟩]) "/" =
        .ok ⟨[.clean ⟨" a"⟩], ["a (ERROR [0, 0] - [0, 1])"]⟩ := by decide +kernel
    rw [hscan]
    exact not_tellsError (by decide)
  · exact Selection.resolve_root_eq_ok (by decide +kernel)
  · have hscan : batch (line ⟨"b"⟩ "x y") (.ofList [⟨"b"⟩, ⟨"b (x"⟩]) "/" =
        .error ⟨1, "b (x y [0, 0] - [0, 1])", .missingOpenParen⟩ := by decide +kernel
    rw [hscan]
    rintro ⟨_, ⟨⟩, -⟩
  · exact Selection.resolve_root_eq_ok (by decide +kernel)
  · have hscan : batch (line ⟨"c"⟩ "x") (.ofList [⟨"c"⟩, ⟨"c (x [0, 0] - [0, 1])"⟩]) "/" =
        .ok ⟨[⟨⟨"c (x [0, 0] - [0, 1])"⟩, none, "c (x [0, 0] - [0, 1])"⟩, .clean ⟨"c"⟩], []⟩ := by
      decide +kernel
    rw [hscan]
    exact not_tellsError (by decide)
  · have hname : FileTree.IsName "/l" (Octets.ofText "l") := by decide +kernel
    have hplace := (tree ["l"]).startOf_eq_nil "/l" (by decide +kernel)
    have hnode : (tree ["l"]).nodeOf (RepoPath.joinText "/o (x" "/l") =
        .ok (.file (Octets.ofText "/o\ny\n") false) := by
      rw [show RepoPath.joinText "/o (x" "/l" = "/l" by decide +kernel]
      exact hname.nodeOf_eq_found hplace rfl rfl rfl
    have hlisted : ((ListFile.entries "/o\ny\n").map fun e =>
        RepoPath.normalize (Text.trim e) "/o (x") = [⟨"/o"⟩, ⟨"y"⟩] := by decide +kernel
    rw [Selection.resolve_list_eq_ok hnode, hlisted]
  · have hscan : batch (line ⟨"/o"⟩ "x/y (z") (.ofList [⟨"/o"⟩, ⟨"y"⟩]) "/o (x" =
        .ok ⟨[⟨⟨"y"⟩, some ⟨1, 1, 1, 2, "z"⟩, "/o (x/y (z [0, 0] - [0, 1])"⟩,
          .clean ⟨"/o"⟩], []⟩ := by decide +kernel
    rw [hscan]
    exact not_tellsError (by decide)

end ParseAudit.Scan
