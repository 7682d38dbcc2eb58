import ParseAudit.Proofs.Region
import ParseAudit.Proofs.Scan.Reading
import ParseAudit.Proofs.Text.Lines
/-!
# Reading back printed entries

A parser prints one line for each entry: a file, and perhaps an error node behind some columns.
Scanning such an output gives back the entries, however odd the names and labels are.

* `isErrorNode_printed`: a printed node is an error node for its region;
* `attributed_line`: a printed line belongs to the file of its entry;
* `batch_printed`: the records of a printed output are its entries, then the silent files.
-/

namespace ParseAudit.Scan

open Chars Line

/-! ## Printing -/

/-- A point in brackets, as a parser prints it. -/
def pointText (p : Point) : List Char :=
  '[' :: (Nat.toDigits 10 p.row.toNat ++ ',' :: ' ' :: (Nat.toDigits 10 p.column.toNat ++ [']']))

/-- An error node to be printed, with what stands between the file and the node. -/
structure PrintedNode where
  /-- The blank behind the file. -/
  gap : Char
  /-- Columns that say nothing. -/
  columns : List Char
  label : String
  start : Point
  stop : Point

/-- One line to be printed. -/
structure Entry where
  file : RepoPath
  node : Option PrintedNode

namespace PrintedNode

/-- The node itself. -/
def text (n : PrintedNode) : List Char :=
  '(' :: (n.label.toList ++ ' ' :: (pointText n.start ++ ' ' :: '-' :: ' ' ::
    (pointText n.stop ++ [')'])))

/-- The region that the node stands for. -/
def region (n : PrintedNode) : Region := .between n.label n.start n.stop

/-- What a parser keeps to when it prints a node. -/
structure Printable (n : PrintedNode) : Prop where
  gap : n.gap = ' ' ∨ n.gap = '\t'
  columns : '(' ∉ n.columns ∧ '\n' ∉ n.columns
  label : n.label.toList ≠ [] ∧ Trimmed n.label.toList ∧ '\n' ∉ n.label.toList

/-- The parts of a printed node behind some columns. -/
def form (n : PrintedNode) (columns : List Char) : NodeForm where
  lead := columns
  label := n.label.toList ++ [' ']
  start := ⟨Nat.toDigits 10 n.start.row.toNat, ' ' :: Nat.toDigits 10 n.start.column.toNat⟩
  afterStart := []
  beforeStop := []
  stop := ⟨Nat.toDigits 10 n.stop.row.toNat, ' ' :: Nat.toDigits 10 n.stop.column.toNat⟩
  afterStop := []

end PrintedNode

namespace Entry

/-- What stands behind the file. -/
def tail (e : Entry) : List Char :=
  match e.node with
  | none => []
  | some n => n.gap :: (n.columns ++ n.text)

/-- The line of an entry. -/
def line (e : Entry) : List Char := e.file.text.toList ++ e.tail

/-- The record that an entry stands for. -/
def record (e : Entry) : Record :=
  ⟨e.file, e.node.map PrintedNode.region, String.ofList e.line⟩

end Entry

/-- A file whose name is in normal form and can stand in front of a line. -/
structure IsPlain (base : String) (t : RepoPath) : Prop where
  ne_nil : t.text.toList ≠ []
  feed : '\n' ∉ t.text.toList
  trimmed : Trimmed t.text.toList
  normal : RepoPath.normalize t.text base = t

/-! ## Reading a printed node -/

/-- A printed node is an error node for its region. -/
theorem isErrorNode_printed {n : PrintedNode} (hn : n.Printable) {columns : List Char}
    (hcolumns : '(' ∉ columns) : IsErrorNode (columns ++ n.text) n.region := by
  obtain ⟨hne, htrimmed, -⟩ := hn.label
  have hlabel : trim (n.label.toList ++ [' ']) = n.label.toList := by
    rw [trim_append_blank (by decide), htrimmed.trim_eq]
  refine ⟨n.form columns, ?_, ?_⟩
  · simp [PrintedNode.form, NodeForm.text, NodeForm.inner, PointForm.text, PrintedNode.text,
      pointText]
  · exact {
      lead := hcolumns
      label := fun hblank => hne (htrimmed.eq_nil_of_allBlank hblank.of_append_left)
      afterStart := allBlank_nil
      beforeStop := allBlank_nil
      afterStop := allBlank_nil
      region := by
        refine ⟨n.start, n.stop, PointForm.denotes_printed n.start,
          PointForm.denotes_printed n.stop, ?_⟩
        show n.region = .between (String.ofList (trim (n.label.toList ++ [' ']))) n.start n.stop
        rw [hlabel, String.ofList_toList]
        rfl }

theorem getLast?_printed (n : PrintedNode) : n.text.getLast? = some ')' := by
  simp [PrintedNode.text, pointText, List.getLast?_append, List.getLast?_cons]

/-- Blanks in front of a node vanish with the trimming, but the node stays. -/
theorem trim_append_printed (columns : List Char) (n : PrintedNode) :
    trim (columns ++ n.text) = trimStart columns ++ n.text := by
  obtain ⟨b, hb, hcolumns⟩ := exists_trimStart columns
  have htrimmed : Trimmed (trimStart columns ++ n.text) := by
    constructor
    · intro c hc
      rw [List.head?_append] at hc
      cases hstart : (trimStart columns).head? with
      | some d =>
        rw [hstart] at hc
        exact head_trimStart columns c (by rw [hstart]; exact hc)
      | none =>
        rw [hstart] at hc
        cases hc
        decide
    · intro c hc
      rw [List.getLast?_append, getLast?_printed] at hc
      cases hc
      decide
  calc trim (columns ++ n.text) = trim (b ++ (trimStart columns ++ n.text)) := by
        rw [← List.append_assoc, ← hcolumns]
    _ = trimStart columns ++ n.text := by rw [trim_blank_append hb, htrimmed.trim_eq]

/-! ## Printed lines -/

section Line

variable {base : String} {targets : FileSet} {e : Entry}

theorem isBlank_gap {n : PrintedNode} (hn : n.Printable) : isBlank n.gap = true := by
  rcases hn.gap with h | h
  · rw [h]
    decide
  · rw [h]
    decide

theorem isGap_gap {n : PrintedNode} (hn : n.Printable) : isGap n.gap = true := by
  rcases hn.gap with h | h
  · rw [h]
    decide
  · rw [h]
    decide

/-- A printed line has no blank at either end. -/
theorem trimmed_line (hfile : IsPlain base e.file) : Trimmed e.line := by
  constructor
  · intro c hc
    refine hfile.trimmed.head c ?_
    obtain ⟨d, ds, hd⟩ := List.exists_cons_of_ne_nil hfile.ne_nil
    rw [Entry.line, hd] at hc
    rw [hd]
    exact hc
  · intro c hc
    unfold Entry.line Entry.tail at hc
    cases hnode : e.node with
    | none =>
      rw [hnode] at hc
      exact hfile.trimmed.last c (by simpa using hc)
    | some n =>
      rw [hnode] at hc
      simp only [List.getLast?_append, List.getLast?_cons, getLast?_printed] at hc
      simp only [Option.some_or, Option.getD_some, Option.mem_def, Option.some.injEq] at hc
      subst hc
      decide

/-- The file of an entry is one of the cuts of its line. -/
theorem isCut_file (hfile : IsPlain base e.file) (hnode : ∀ n ∈ e.node, n.Printable) :
    IsCut e.line e.file.text.toList e.tail := by
  refine ⟨rfl, hfile.ne_nil, ?_⟩
  intro c hc
  unfold Entry.tail at hc
  cases hn : e.node with
  | none =>
    rw [hn] at hc
    cases hc
  | some n =>
    rw [hn] at hc
    cases hc
    exact isGap_gap (hnode n hn)

theorem fileOf_text (hfile : IsPlain base e.file) : fileOf base e.file.text.toList = e.file := by
  unfold fileOf
  rw [trimEnd_eq_self hfile.trimmed.last, String.ofList_toList]
  exact hfile.normal

/-- Of two ways to cut a text in two, the longer start goes on where the shorter one ends. -/
theorem exists_overlap {a b c d : List Char} (h : a ++ b = c ++ d) (hle : c.length ≤ a.length) :
    ∃ m, a = c ++ m ∧ d = m ++ b := by
  have hprefix : c <+: a :=
    List.prefix_of_prefix_length_le (h ▸ List.prefix_append c d) (List.prefix_append a b) hle
  obtain ⟨m, rfl⟩ := hprefix
  rw [List.append_assoc] at h
  exact ⟨m, rfl, (List.append_cancel_left h).symm⟩

/-- A start of a text that trims to no more than the name in front adds blanks only. -/
theorem allBlank_of_trimEnd_length_le {name more : List Char}
    (hlength : (trimEnd (name ++ more)).length ≤ name.length) : AllBlank more := by
  obtain ⟨b, hb, happ⟩ := exists_trimEnd (name ++ more)
  obtain ⟨y, -, hy⟩ := exists_overlap happ hlength
  rw [hy] at hb
  exact hb.of_append_right

/-- A printed line is attributed to the file of its entry, with perhaps some of the blanks behind
it, as long as no longer start of the line names a file. -/
theorem attributed_line (hfile : IsPlain base e.file) (hnode : ∀ n ∈ e.node, n.Printable)
    (hmem : e.file ∈ targets)
    (hlongest : ∀ before after, IsCut e.line before after →
      e.file.text.toList.length < (trimEnd before).length → fileOf base before ∉ targets) :
    ∃ blanks after, AllBlank blanks ∧ blanks ++ after = e.tail ∧
      fileOf base (e.file.text.toList ++ blanks) = e.file ∧
      Attributed (targets.contains · = true) base (trim e.line) (e.file.text.toList ++ blanks)
        after := by
  have hline : trim e.line = e.line := (trimmed_line hfile).trim_eq
  have hcut := isCut_file hfile hnode
  have hnamed : targets.contains (fileOf base e.file.text.toList) = true := by
    rw [fileOf_text hfile]
    exact FileSet.contains_iff.2 hmem
  rw [← hline] at hcut
  obtain ⟨before, after, hatt⟩ := exists_attributed hcut hnamed
  have hshort : (trimEnd before).length ≤ e.file.text.toList.length := by
    by_contra hlong
    refine hlongest before after (hline ▸ hatt.cut) (by omega) ?_
    exact FileSet.contains_iff.1 hatt.mem
  have hreach : e.file.text.toList.length ≤ before.length := by
    by_contra hless
    exact hatt.longest _ _ hcut (by omega) hnamed
  -- The attributed start is the name and what follows it.
  have happ : before ++ after = e.file.text.toList ++ e.tail :=
    (hline ▸ hatt.cut.append : before ++ after = e.line)
  obtain ⟨blanks, rfl, htail⟩ := exists_overlap happ hreach
  have hblank := allBlank_of_trimEnd_length_le hshort
  refine ⟨blanks, after, hblank, htail.symm, ?_, hatt⟩
  unfold fileOf
  rw [trimEnd_append_blank hblank]
  exact fileOf_text hfile

/-- What stands behind the file and its blanks says what the entry says. -/
theorem says_tail (hnode : ∀ n ∈ e.node, n.Printable) {blanks after : List Char}
    (hblank : AllBlank blanks) (htail : blanks ++ after = e.tail) :
    Says (trim after) (e.node.map PrintedNode.region) := by
  unfold Entry.tail at htail
  cases hn : e.node with
  | none =>
    rw [hn] at htail
    obtain ⟨-, rfl⟩ := List.append_eq_nil_iff.1 htail
    intro hlast
    cases hlast
  | some n =>
    have hprintable := hnode n hn
    rw [hn] at htail
    have hopen : '(' ∉ n.gap :: n.columns := by
      refine List.not_mem_cons_of_ne_of_not_mem ?_ hprintable.columns.1
      intro hgap
      have hblankGap := isBlank_gap hprintable
      rw [← hgap] at hblankGap
      revert hblankGap
      decide
    -- The blanks end before the opening parenthesis.
    obtain ⟨columns, hcolumns, hafter⟩ : ∃ columns, n.gap :: n.columns = blanks ++ columns ∧
        after = columns ++ n.text := by
      have happ : blanks ++ after = (n.gap :: n.columns) ++ n.text := by simpa using htail
      rcases List.append_eq_append_iff.1 happ with ⟨y, h, h'⟩ | ⟨y, h, h'⟩
      · exact ⟨y, h, h'⟩
      · cases y with
        | nil => exact ⟨[], by simpa using h.symm, by simpa using h'.symm⟩
        | cons c cs =>
          rw [PrintedNode.text, List.cons_append] at h'
          injection h' with hc
          refine absurd ?_ (hblank.not_mem (c := '(') (by decide))
          rw [h, hc]
          exact List.mem_append_right _ List.mem_cons_self
    have hrest : '(' ∉ trimStart columns := by
      obtain ⟨b, -, hb⟩ := exists_trimStart columns
      intro hmem
      apply hopen
      rw [hcolumns, hb]
      exact List.mem_append_right _ (List.mem_append_right _ hmem)
    rw [hafter, trim_append_printed]
    exact isErrorNode_printed hprintable hrest

/-- The line of an entry is read as the record of the entry. -/
theorem scanLine_printed (hfile : IsPlain base e.file) (hnode : ∀ n ∈ e.node, n.Printable)
    (hmem : e.file ∈ targets)
    (hlongest : ∀ before after, IsCut e.line before after →
      e.file.text.toList.length < (trimEnd before).length → fileOf base before ∉ targets) :
    scanLine targets.contains base e.line = .ok ⟨[e.record], []⟩ := by
  obtain ⟨blanks, after, hblank, htail, hname, hatt⟩ :=
    attributed_line hfile hnode hmem hlongest
  have hrecord := Contributes.record hatt (says_tail hnode hblank htail)
  rw [hname, (trimmed_line hfile).trim_eq] at hrecord
  exact scanLine_eq_ok_iff.2 hrecord

/-- A printed line holds no line end and is not empty. -/
theorem feed_not_mem_line (hfile : IsPlain base e.file) (hnode : ∀ n ∈ e.node, n.Printable) :
    '\n' ∉ e.line := by
  have hdigits : ∀ n : Nat, '\n' ∉ Nat.toDigits 10 n := by
    intro n hn
    have hd : Char.isDigit '\n' = true := Nat.isDigit_of_mem_toDigits (by decide) (by decide) hn
    revert hd
    decide
  unfold Entry.line Entry.tail
  cases hn : e.node with
  | none => simpa using hfile.feed
  | some n =>
    have hprintable := hnode n hn
    have hgap : '\n' ≠ n.gap := by
      rcases hprintable.gap with h | h
      · rw [h]
        decide
      · rw [h]
        decide
    simp [PrintedNode.text, pointText, hfile.feed, hgap, hprintable.columns.2,
      hprintable.label.2.2, hdigits]

end Line

/-! ## Printed outputs -/

/-- Scanning decodes what a parser prints: of an output with one line for each entry, the records
are the entries in their order, and then the files without an entry, which are clean.  Nothing is
left unmatched. -/
theorem batch_printed (base : String) (targets : FileSet) (entries : List Entry)
    (htargets : ∀ t ∈ targets, IsPlain base t)
    (hentries : ∀ e ∈ entries, e.file ∈ targets ∧ ∀ n ∈ e.node, n.Printable)
    (hlongest : ∀ e ∈ entries, ∀ before after, IsCut e.line before after →
      e.file.text.toList.length < (trimEnd before).length → fileOf base before ∉ targets) :
    batch (String.ofList (['\n'].intercalate (entries.map Entry.line))) targets base =
      .ok ⟨entries.map Entry.record ++
        (targets.toList.filter fun t => t ∉ entries.map Entry.file).map .clean, []⟩ := by
  have hline : ∀ e ∈ entries, scanLine targets.contains base e.line = .ok ⟨[e.record], []⟩ := by
    intro e he
    obtain ⟨hmem, hnode⟩ := hentries e he
    exact scanLine_printed (htargets e.file hmem) hnode hmem (hlongest e he)
  have hlines : lines (['\n'].intercalate (entries.map Entry.line)) = entries.map Entry.line := by
    apply lines_intercalate
    intro l hl
    obtain ⟨e, he, rfl⟩ := List.mem_map.1 hl
    obtain ⟨hmem, hnode⟩ := hentries e he
    have hplain := htargets e.file hmem
    refine ⟨feed_not_mem_line hplain hnode, ?_, ?_⟩
    · intro hreturn
      have hblank := (trimmed_line hplain).last _ hreturn
      revert hblank
      decide
    · intro hnil
      exact hplain.ne_nil (List.append_eq_nil_iff.1 hnil).1
  have houtputs : (entries.map Entry.line).map (outputOf targets.contains base) =
      (entries.map Entry.record).map fun r => ⟨[r], []⟩ := by
    rw [List.map_map, List.map_map]
    apply List.map_congr_left
    intro e he
    exact outputOf_eq (hline e he)
  have hscan : scanOutput targets.contains base
      (String.ofList (['\n'].intercalate (entries.map Entry.line))) =
        .ok ⟨entries.map Entry.record, []⟩ := by
    unfold scanOutput
    rw [String.toList_ofList, hlines]
    refine scanLines_eq_ok_iff.2 ⟨?_, ?_⟩
    · intro l hl
      obtain ⟨e, he, rfl⟩ := List.mem_map.1 hl
      exact ⟨_, hline e he⟩
    · rw [houtputs, ScanOutput.concat_singletons]
  have hfiles : (entries.map Entry.record).map Record.file = entries.map Entry.file := by
    rw [List.map_map]
    rfl
  have hsilent : (targets.toList.filter fun t => !(entries.map Entry.file).contains t) =
      targets.toList.filter fun t => t ∉ entries.map Entry.file := by
    apply List.filter_congr
    intro t _
    rw [List.contains_eq_mem, decide_not]
  rw [batch_eq_ok hscan, hfiles, hsilent]

/-- A label that holds a separator and a bracket, a coordinate at the top of the range, and a name
with a blank in it whose start is a name too. -/
theorem batch_printed_odd_label :
    batch "a b\t0.1 ms (x - [3 [0, 4294967295] - [2, 0])\na b" (.ofList [⟨"a b"⟩, ⟨"a"⟩]) "" =
      .ok ⟨[⟨⟨"a b"⟩, some ⟨1, 4294967295, 3, 1, "x - [3"⟩,
          "a b\t0.1 ms (x - [3 [0, 4294967295] - [2, 0])"⟩,
        ⟨⟨"a b"⟩, none, "a b"⟩, .clean ⟨"a"⟩], []⟩ := by
  let node : PrintedNode := ⟨'\t', "0.1 ms ".toList, "x - [3", ⟨0, 4294967295⟩, ⟨2, 0⟩⟩
  let entries : List Entry := [⟨⟨"a b"⟩, some node⟩, ⟨⟨"a b"⟩, none⟩]
  let targets : FileSet := .ofList [⟨"a b"⟩, ⟨"a"⟩]
  have hplain : ∀ t ∈ targets.toList, t.text.toList ≠ [] ∧ '\n' ∉ t.text.toList ∧
      Trimmed t.text.toList ∧ RepoPath.normalize t.text "" = t := by decide +kernel
  have hnode : node.Printable := ⟨.inr rfl, by decide, by decide⟩
  have htrimmed : ∀ e ∈ entries, Trimmed e.line := by decide +kernel
  have hcuts : ∀ e ∈ entries, ∀ cut ∈ cuts e.line,
      e.file.text.toList.length < (trimEnd cut.passed.reverse).length →
        fileOf "" cut.passed.reverse ∉ targets := by decide +kernel
  have hprinted := batch_printed "" targets entries
    (fun t ht => ⟨(hplain t ht).1, (hplain t ht).2.1, (hplain t ht).2.2.1, (hplain t ht).2.2.2⟩)
    (by simp [entries, targets, hnode])
    (fun e he => (forall_isCut_iff (htrimmed e he)).2 (hcuts e he))
  have htext : String.ofList (['\n'].intercalate (entries.map Entry.line)) =
      "a b\t0.1 ms (x - [3 [0, 4294967295] - [2, 0])\na b" := by decide +kernel
  have hrecords : entries.map Entry.record ++
      (targets.toList.filter fun t => t ∉ entries.map Entry.file).map .clean =
        [⟨⟨"a b"⟩, some ⟨1, 4294967295, 3, 1, "x - [3"⟩,
            "a b\t0.1 ms (x - [3 [0, 4294967295] - [2, 0])"⟩,
          ⟨⟨"a b"⟩, none, "a b"⟩, .clean ⟨"a"⟩] := by decide +kernel
  rw [htext, hrecords] at hprinted
  exact hprinted

end ParseAudit.Scan
