import ParseAudit.Line.Grammar
import ParseAudit.Proofs.Text.Numeral
import ParseAudit.Proofs.Text.Separators
import ParseAudit.Proofs.Text.Trimmed
/-!
# The grammar of error nodes

The reader of an error node works by cuts: at the first `(`, at the last ` - `, at the last `[`.
Here the node is described by its parts instead, and both descriptions agree.

* `coordinate_eq_ok_iff`, `point_eq_ok_iff`: coordinates and points by their parts;
* `errorNode_eq_ok_iff`: exactly the texts that can be put together from parts are read;
* `regionOf_eq_ok_iff`: what a rest says, by whether it ends in `)`.
-/

namespace ParseAudit

/-- The coordinate counted from one, kept in range. -/
def countedFromOne (n : UInt32) : UInt32 := UInt32.ofNat (min (n.toNat + 1) (UInt32.size - 1))

theorem nextCoordinate_eq (n : UInt32) : nextCoordinate n = countedFromOne n := by
  have hlt : n.toNat < UInt32.size := n.toNat_lt
  unfold nextCoordinate countedFromOne
  by_cases h : n = 0xFFFFFFFF
  · subst h
    rfl
  · have hne : n.toNat ≠ UInt32.size - 1 := by
      intro hn
      exact h (UInt32.toNat_inj.1 hn)
    rw [if_neg (by simpa using h)]
    apply UInt32.toNat_inj.1
    rw [UInt32.toNat_add, UInt32.toNat_ofNat', UInt32.toNat_one]
    unfold UInt32.size at *
    omega

/-- The region of a label between two points that are counted from zero. -/
def Region.between (label : String) (start stop : Point) : Region where
  startLine := countedFromOne start.row
  startColumn := countedFromOne start.column
  endLine := countedFromOne stop.row
  endColumn := countedFromOne stop.column
  label := label

theorem Region.ofPoints_eq_between (label : String) (start stop : Point) :
    Region.ofPoints label start stop = Region.between label start stop := by
  simp only [Region.ofPoints, Region.between, nextCoordinate_eq]

namespace Line

open Chars

/-! ## Coordinates -/

/-- A text that denotes a coordinate: a numeral with blanks around it. -/
def DenotesCoordinate (s : List Char) (n : UInt32) : Prop := IsNumeral (trim s) n.toNat

theorem coordinate_eq_ok_iff {s : List Char} {n : UInt32} :
    coordinate s = .ok n ↔ DenotesCoordinate s n := by
  unfold coordinate DenotesCoordinate
  constructor
  · intro h
    dsimp only at h
    split at h
    next m hm =>
      cases h
      obtain ⟨hnum, hlt⟩ := naturalBelow?_eq_some_iff.1 hm
      rwa [UInt32.toNat_ofNat_of_lt' hlt]
    next => cases h
  · intro h
    have hm : naturalBelow? UInt32.size (trim s) = some n.toNat :=
      naturalBelow?_eq_some_iff.2 ⟨h, n.toNat_lt⟩
    dsimp only
    rw [hm]
    exact congrArg Except.ok UInt32.ofNat_toNat

/-- A coordinate holds blanks, digits and `+` only. -/
theorem DenotesCoordinate.not_mem {s : List Char} {n : UInt32} (h : DenotesCoordinate s n)
    {c : Char} (hblank : isBlank c = false) (hdigit : c.isDigit = false) (hplus : c ≠ '+') :
    c ∉ s := by
  intro hc
  obtain ⟨b, b', hb, hb', hs⟩ := exists_trim s
  rw [hs] at hc
  rcases List.mem_append.1 hc with hc | hc
  · rcases List.mem_append.1 hc with hc | hc
    · exact hb.not_mem hblank hc
    · rcases h.mem hc with hd | hp
      · rw [hdigit] at hd
        cases hd
      · exact hplus hp
  · exact hb'.not_mem hblank hc

/-! ## Points -/

/-- The two texts of a point. -/
structure PointForm where
  row : List Char
  column : List Char

namespace PointForm

/-- The text of a point in brackets. -/
def text (p : PointForm) : List Char := '[' :: (p.row ++ ',' :: (p.column ++ [']']))

/-- Which point a pair of texts denotes. -/
def Denotes (p : PointForm) (point : Point) : Prop :=
  DenotesCoordinate p.row point.row ∧ DenotesCoordinate p.column point.column

theorem trimmed_text (p : PointForm) : Trimmed p.text := by
  constructor
  · intro c hc
    cases hc
    decide
  · intro c hc
    have hlast : p.text.getLast? = some ']' := by simp [text, List.getLast?_cons]
    rw [hlast] at hc
    cases hc
    decide

/-- The text of a point holds no character that is neither a bracket nor a comma nor part of a
coordinate. -/
theorem Denotes.not_mem {p : PointForm} {point : Point} (h : p.Denotes point) {c : Char}
    (hblank : isBlank c = false) (hdigit : c.isDigit = false) (hmark : c ∉ ['+', '[', ',', ']']) :
    c ∉ p.text := by
  simp only [List.mem_cons, List.not_mem_nil, or_false, not_or] at hmark
  obtain ⟨hplus, hopen, hcomma, hclose⟩ := hmark
  have hrow := h.1.not_mem hblank hdigit hplus
  have hcolumn := h.2.not_mem hblank hdigit hplus
  simp [text, hopen, hcomma, hclose, hrow, hcolumn]

end PointForm

/-- The three cuts of a point in brackets. -/
theorem pointParts_eq_some_iff {s row column : List Char} :
    (do
      let inner ← stripStart? ['['] s
      let inner ← stripEnd? [']'] inner
      splitFirst [','] inner) = some (row, column) ↔
      s = (PointForm.mk row column).text ∧ ',' ∉ row := by
  simp only [Option.bind_eq_bind, Option.bind_eq_some_iff, stripStart?_eq_some_iff,
    stripEnd?_eq_some_iff, splitFirst_singleton_eq_some_iff]
  constructor
  · rintro ⟨_, rfl, _, rfl, rfl, hcomma⟩
    exact ⟨by simp [PointForm.text], hcomma⟩
  · rintro ⟨rfl, hcomma⟩
    exact ⟨row ++ ',' :: column ++ [']'], by simp [PointForm.text], row ++ ',' :: column, rfl, rfl,
      hcomma⟩

/-- Exactly the points in brackets are read, with blanks around them. -/
theorem point_eq_ok_iff {s : List Char} {p : Point} :
    point s = .ok p ↔
      ∃ form : PointForm, form.Denotes p ∧
        ∃ b b', AllBlank b ∧ AllBlank b' ∧ s = b ++ form.text ++ b' := by
  constructor
  · intro h
    unfold point at h
    dsimp only at h
    split at h
    next => cases h
    next row column hparts =>
      obtain ⟨htext, -⟩ := pointParts_eq_some_iff.1 hparts
      cases hrow : coordinate row with
      | error e => rw [hrow] at h; cases h
      | ok r =>
        cases hcolumn : coordinate column with
        | error e => rw [hrow, hcolumn] at h; cases h
        | ok c =>
          rw [hrow, hcolumn] at h
          cases h
          refine ⟨⟨row, column⟩, ⟨coordinate_eq_ok_iff.1 hrow, coordinate_eq_ok_iff.1 hcolumn⟩, ?_⟩
          rw [← htext]
          exact exists_trim s
  · rintro ⟨form, hform, hs⟩
    have htrim : trim s = form.text := trim_eq_iff.2 ⟨form.trimmed_text, hs⟩
    have hcomma : ',' ∉ form.row := hform.1.not_mem (by decide) (by decide) (by decide)
    unfold point
    dsimp only
    rw [htrim, pointParts_eq_some_iff.2 ⟨rfl, hcomma⟩]
    dsimp only
    rw [coordinate_eq_ok_iff.2 hform.1, coordinate_eq_ok_iff.2 hform.2]
    rfl

/-- The point at the start of a text, before which no blank can stand. -/
theorem point_bracket_eq_ok_iff {s : List Char} {p : Point} :
    point ('[' :: s) = .ok p ↔
      ∃ form : PointForm, form.Denotes p ∧ ∃ b, AllBlank b ∧ '[' :: s = form.text ++ b := by
  rw [point_eq_ok_iff]
  constructor
  · rintro ⟨form, hform, b, b', hb, hb', hs⟩
    cases b with
    | nil => exact ⟨form, hform, b', hb', hs⟩
    | cons c cs =>
      injection hs with hc
      exact absurd (hc ▸ List.mem_cons_self) (hb.not_mem (c := '[') (by decide))
  · rintro ⟨form, hform, b, hb, hs⟩
    exact ⟨form, hform, [], b, allBlank_nil, hb, hs⟩

/-! ## Error nodes -/

/-- The parts of a rest that carries an error node. -/
structure NodeForm where
  /-- What stands in front of the node, such as timing columns. -/
  lead : List Char
  label : List Char
  start : PointForm
  afterStart : List Char
  beforeStop : List Char
  stop : PointForm
  afterStop : List Char

namespace NodeForm

/-- The text between the parentheses. -/
def inner (f : NodeForm) : List Char :=
  f.label ++ f.start.text ++ f.afterStart ++ [' ', '-', ' '] ++
    (f.beforeStop ++ f.stop.text ++ f.afterStop)

/-- The whole text that the parts make up. -/
def text (f : NodeForm) : List Char := f.lead ++ '(' :: (f.inner ++ [')'])

/-- Which region the parts denote, and what they must not hold. -/
structure Denotes (f : NodeForm) (region : Region) : Prop where
  lead : '(' ∉ f.lead
  label : ¬AllBlank f.label
  afterStart : AllBlank f.afterStart
  beforeStop : AllBlank f.beforeStop
  afterStop : AllBlank f.afterStop
  region : ∃ start stop, f.start.Denotes start ∧ f.stop.Denotes stop ∧
    region = .between (String.ofList (trim f.label)) start stop

end NodeForm

/-- A rest that can be put together from the parts of an error node for a region. -/
def IsErrorNode (rest : List Char) (region : Region) : Prop :=
  ∃ f : NodeForm, f.text = rest ∧ f.Denotes region

/-- The last ` - ` of a node is the one between its points. -/
theorem splitLast_inner {f : NodeForm} {stop : Point} (hgap : AllBlank f.beforeStop)
    (hgap' : AllBlank f.afterStop) (hstop : f.stop.Denotes stop) :
    splitLast [' ', '-', ' '] f.inner =
      some (f.label ++ f.start.text ++ f.afterStart,
        f.beforeStop ++ f.stop.text ++ f.afterStop) := by
  have hdash : '-' ∉ f.beforeStop ++ f.stop.text ++ f.afterStop := by
    rw [List.mem_append, List.mem_append, not_or, not_or]
    exact ⟨⟨hgap.not_mem (by decide), hstop.not_mem (by decide) (by decide) (by decide)⟩,
      hgap'.not_mem (by decide)⟩
  have hspace : '-' ∉ ' ' :: (f.beforeStop ++ f.stop.text ++ f.afterStop) :=
    List.not_mem_cons_of_ne_of_not_mem (by decide) hdash
  apply splitLast_of_tail_eq_none
  -- The dash of the separator itself starts no occurrence, since a separator starts with a blank.
  show splitLast [' ', '-', ' '] ('-' :: ' ' :: (f.beforeStop ++ f.stop.text ++ f.afterStop)) = none
  unfold splitLast
  rw [splitLast_eq_none_of_not_mem (c := '-') (by decide) hspace]
  rfl

/-- The last `[` in front of the separator opens the first point. -/
theorem splitLast_head {f : NodeForm} {start : Point} (hgap : AllBlank f.afterStart)
    (hstart : f.start.Denotes start) :
    splitLast ['['] (f.label ++ f.start.text ++ f.afterStart) =
      some (f.label, f.start.text.tail ++ f.afterStart) := by
  have hrow := hstart.1.not_mem (c := '[') (by decide) (by decide) (by decide)
  have hcolumn := hstart.2.not_mem (c := '[') (by decide) (by decide) (by decide)
  have hrest : '[' ∉ f.start.text.tail ++ f.afterStart := by
    simp [PointForm.text, hrow, hcolumn, hgap.not_mem (c := '[') (by decide)]
  rw [List.append_assoc]
  exact splitLast_singleton hrest

/-- What is put together from parts is read. -/
theorem errorNode_of_isErrorNode {rest : List Char} {region : Region}
    (h : IsErrorNode rest region) : errorNode rest = .ok region := by
  obtain ⟨f, rfl, hf⟩ := h
  obtain ⟨start, stop, hstart, hstop, rfl⟩ := hf.region
  have hopen : splitFirst ['('] f.text = some (f.lead, f.inner ++ [')']) :=
    splitFirst_singleton_eq_some_iff.2 ⟨rfl, hf.lead⟩
  have hlabel : (trim f.label).isEmpty = false := by
    rw [List.isEmpty_eq_false_iff]
    exact fun he => hf.label (trim_eq_nil_iff.1 he)
  have hfirst : point ('[' :: (f.start.text.tail ++ f.afterStart)) = .ok start :=
    point_bracket_eq_ok_iff.2 ⟨f.start, hstart, f.afterStart, hf.afterStart, rfl⟩
  have hsecond : point (f.beforeStop ++ f.stop.text ++ f.afterStop) = .ok stop :=
    point_eq_ok_iff.2 ⟨f.stop, hstop, f.beforeStop, f.afterStop, hf.beforeStop, hf.afterStop, rfl⟩
  unfold errorNode
  rw [hopen]
  dsimp only
  rw [List.dropLast_concat, splitLast_inner hf.beforeStop hf.afterStop hstop]
  dsimp only
  rw [splitLast_head hf.afterStart hstart]
  dsimp only
  rw [hlabel, hfirst, hsecond, ← Region.ofPoints_eq_between]
  rfl

/-- The cuts that were made in a text that was read. -/
theorem exists_cuts_of_errorNode {rest : List Char} {region : Region}
    (h : errorNode rest = .ok region) :
    ∃ lead node head stopText label startText start stop,
      splitFirst ['('] rest = some (lead, node) ∧
      splitLast [' ', '-', ' '] node.dropLast = some (head, stopText) ∧
      splitLast ['['] head = some (label, startText) ∧ trim label ≠ [] ∧
      point ('[' :: startText) = .ok start ∧ point stopText = .ok stop ∧
      region = .ofPoints (String.ofList (trim label)) start stop := by
  unfold errorNode at h
  split at h
  · cases h
  · next lead node hopen =>
    split at h
    · cases h
    · next head stopText hsep =>
      split at h
      · cases h
      · next label startText hbracket =>
        dsimp only at h
        split at h
        · cases h
        · next hlabel =>
          cases hstart : point ('[' :: startText) with
          | error e => rw [hstart] at h; cases h
          | ok start =>
            cases hstop : point stopText with
            | error e => rw [hstart, hstop] at h; cases h
            | ok stop =>
              rw [hstart, hstop] at h
              cases h
              exact ⟨lead, node, head, stopText, label, startText, start, stop, hopen, hsep,
                hbracket, by simpa using hlabel, hstart, hstop, rfl⟩

/-- A closing parenthesis at the end of a text stands behind the opening one. -/
theorem exists_inner_of_getLast? {lead node : List Char}
    (h : (lead ++ '(' :: node).getLast? = some ')') : ∃ inner, node = inner ++ [')'] := by
  rcases List.eq_nil_or_concat node with rfl | ⟨inner, c, rfl⟩
  · simp at h
  · rw [List.concat_eq_append] at h ⊢
    have hc : c = ')' := by simpa [List.getLast?_append, List.getLast?_cons] using h
    exact ⟨inner, by rw [hc]⟩

/-- What is read can be put together from parts. -/
theorem isErrorNode_of_errorNode {rest : List Char} {region : Region}
    (hlast : rest.getLast? = some ')') (h : errorNode rest = .ok region) :
    IsErrorNode rest region := by
  obtain ⟨lead, node, head, stopText, label, startText, start, stop, hopen, hsep, hbracket,
    hlabel, hstart, hstop, rfl⟩ := exists_cuts_of_errorNode h
  obtain ⟨rfl, hlead⟩ := splitFirst_singleton_eq_some_iff.1 hopen
  obtain ⟨inner, rfl⟩ := exists_inner_of_getLast? hlast
  rw [List.dropLast_concat] at hsep
  obtain ⟨first, hfirst, afterStart, hgap, hstartText⟩ := point_bracket_eq_ok_iff.1 hstart
  obtain ⟨second, hsecond, beforeStop, afterStop, hgap', hgap'', rfl⟩ := point_eq_ok_iff.1 hstop
  have hhead : head = label ++ first.text ++ afterStart := by
    rw [List.append_assoc, ← hstartText]
    simpa using splitLast_eq_some hbracket
  have hinner : inner = head ++ [' ', '-', ' '] ++ (beforeStop ++ second.text ++ afterStop) :=
    splitLast_eq_some hsep
  refine ⟨⟨lead, label, first, afterStart, beforeStop, second, afterStop⟩, ?_, ?_⟩
  · rw [NodeForm.text, NodeForm.inner, hinner, hhead]
  · exact {
      lead := hlead
      label := fun hblank => hlabel (trim_eq_nil_iff.2 hblank)
      afterStart := hgap
      beforeStop := hgap'
      afterStop := hgap''
      region := ⟨start, stop, hfirst, hsecond, Region.ofPoints_eq_between ..⟩ }

/-- An error node is read exactly when it can be put together from parts. -/
theorem errorNode_eq_ok_iff {rest : List Char} {region : Region}
    (hlast : rest.getLast? = some ')') :
    errorNode rest = .ok region ↔ IsErrorNode rest region :=
  ⟨isErrorNode_of_errorNode hlast, errorNode_of_isErrorNode⟩

theorem coordinate_ne_empty (s : List Char) : coordinate s ≠ .error .empty := by
  unfold coordinate
  dsimp only
  split
  · exact nofun
  · exact nofun

theorem point_ne_empty (s : List Char) : point s ≠ .error .empty := by
  unfold point
  dsimp only
  split
  · exact nofun
  · next row column _ =>
    cases hrow : coordinate row with
    | error e =>
      intro h
      cases h
      exact coordinate_ne_empty row hrow
    | ok r =>
      cases hcolumn : coordinate column with
      | error e =>
        intro h
        cases h
        exact coordinate_ne_empty column hcolumn
      | ok c => exact nofun

/-- What is wrong with an error node is never that there is none. -/
theorem errorNode_ne_empty (rest : List Char) : errorNode rest ≠ .error .empty := by
  unfold errorNode
  split
  · exact nofun
  · split
    · exact nofun
    · next stopText _ =>
      split
      · exact nofun
      · next label startText _ =>
        dsimp only
        split
        · exact nofun
        · cases hstart : point ('[' :: startText) with
          | error e =>
            intro h
            cases h
            exact point_ne_empty _ hstart
          | ok start =>
            cases hstop : point stopText with
            | error e =>
              intro h
              cases h
              exact point_ne_empty _ hstop
            | ok stop => exact nofun

theorem getLast?_of_isErrorNode {rest : List Char} {region : Region} (h : IsErrorNode rest region) :
    rest.getLast? = some ')' := by
  obtain ⟨f, rfl, -⟩ := h
  simp [NodeForm.text, List.getLast?_append, List.getLast?_cons]

/-! ## Rests -/

/-- A rest that does not end in `)` says that the file is clean. -/
theorem regionOf_eq_none {rest : List Char} (h : rest.getLast? ≠ some ')') :
    regionOf rest = .ok none := if_neg h

/-- A rest with an error node says where it lies. -/
theorem regionOf_eq_some_iff {rest : List Char} {region : Region} :
    regionOf rest = .ok (some region) ↔ IsErrorNode rest region := by
  unfold regionOf
  by_cases hlast : rest.getLast? = some ')'
  · rw [if_pos hlast, ← errorNode_eq_ok_iff hlast]
    cases errorNode rest with
    | error e => simp [Functor.map, Except.map]
    | ok r => simp [Functor.map, Except.map]
  · rw [if_neg hlast]
    constructor
    · intro h
      cases h
    · intro h
      exact absurd (getLast?_of_isErrorNode h) hlast

/-- Two ways to put a rest together from parts are for the same region. -/
theorem IsErrorNode.unique {rest : List Char} {r r' : Region} (h : IsErrorNode rest r)
    (h' : IsErrorNode rest r') : r = r' := by
  have he := errorNode_of_isErrorNode h
  rw [errorNode_of_isErrorNode h'] at he
  injection he with he
  exact he.symm

end Line

end ParseAudit
