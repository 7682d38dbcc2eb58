import ParseAudit.Proofs.Line.ErrorNode
/-!
# Points and regions in writing

A point is printed as `[row, column]`, and the identity of a region is its label with two such
points behind it.  Since the grammar of error nodes cuts a node at its last ` - ` and its last `[`,
it cuts an identity too, whatever the label holds.

* `Line.PointForm.denotes_printed`: printed coordinates denote the point that they were printed for;
* `Region.append_identity_eq_iff`: two texts that end in identities are the same exactly if the
  extents of the regions are, and what stands in front together with the labels;
* `Region.identity_eq_iff`: a region can be told from its identity.
-/

namespace ParseAudit

open Chars

namespace Line

/-! ## Points -/

theorem trimmed_of_digits {s : List Char} (h : ∀ c ∈ s, c.isDigit = true) : Trimmed s := by
  have hdigit : ∀ c ∈ s, isBlank c = false := by
    intro c hc
    have hd := h c hc
    by_contra hb
    simp only [Char.isDigit, Bool.and_eq_true, decide_eq_true_eq, ge_iff_le] at hd
    have hlow : 48 ≤ c.toNat := hd.1
    have hhigh : c.toNat ≤ 57 := hd.2
    simp only [isBlank, Bool.not_eq_false, Bool.or_eq_true, Bool.and_eq_true, decide_eq_true_eq,
      beq_iff_eq] at hb
    omega
  exact ⟨fun c hc => hdigit c (List.mem_of_mem_head? hc),
    fun c hc => hdigit c (List.mem_of_mem_getLast? hc)⟩

theorem denotes_toDigits (b : List Char) (hb : AllBlank b) (n : UInt32) :
    DenotesCoordinate (b ++ Nat.toDigits 10 n.toNat) n := by
  have htrimmed : Trimmed (Nat.toDigits 10 n.toNat) := by
    apply trimmed_of_digits
    intro c hc
    exact Nat.isDigit_of_mem_toDigits (by decide) (by decide) hc
  unfold DenotesCoordinate
  rw [trim_blank_append hb, htrimmed.trim_eq]
  exact numeral_toDigits n.toNat

namespace PointForm

/-- The parts of a point as it is printed, with a blank behind the comma. -/
def printed (p : Point) : PointForm :=
  ⟨Nat.toDigits 10 p.row.toNat, ' ' :: Nat.toDigits 10 p.column.toNat⟩

/-- Printed coordinates denote the point that they were printed for. -/
theorem denotes_printed (p : Point) : (printed p).Denotes p :=
  ⟨denotes_toDigits [] (by decide) p.row, denotes_toDigits [' '] (by decide) p.column⟩

/-- Different points are printed differently, since each is read back. -/
theorem eq_of_text_printed {p q : Point} (h : (printed p).text = (printed q).text) : p = q := by
  have hread : ∀ r : Point, point (printed r).text = .ok r := by
    intro r
    rw [point_eq_ok_iff]
    exact ⟨printed r, denotes_printed r, [], [], allBlank_nil, allBlank_nil, by simp⟩
  have hp := hread p
  rw [h, hread q] at hp
  injection hp with hp
  exact hp.symm

end PointForm

end Line

/-! ## Identities -/

namespace Region

open Line

/-- The two points of a region, in the counting of the region. -/
def extent (r : Region) : Point × Point :=
  (⟨r.startLine, r.startColumn⟩, ⟨r.endLine, r.endColumn⟩)

/-- A region is its label and its extent. -/
theorem eq_of_extent_eq {r r' : Region} (hlabel : r.label = r'.label)
    (hextent : r.extent = r'.extent) : r = r' := by
  obtain ⟨startLine, startColumn, endLine, endColumn, label⟩ := r
  obtain ⟨startLine', startColumn', endLine', endColumn', label'⟩ := r'
  simp only [extent, Prod.mk.injEq, Point.mk.injEq] at hextent
  obtain ⟨⟨rfl, rfl⟩, rfl, rfl⟩ := hextent
  rw [mk.injEq]
  exact ⟨rfl, rfl, rfl, rfl, hlabel⟩

/-- The parts of an identity with some text in front of the label. -/
def identityForm (front : List Char) (r : Region) : NodeForm where
  lead := []
  label := front ++ r.label.toList ++ [' ']
  start := .printed r.extent.1
  afterStart := []
  beforeStop := []
  stop := .printed r.extent.2
  afterStop := []

theorem inner_identityForm (front : List Char) (r : Region) :
    (identityForm front r).inner = front ++ r.identity.toList := by
  simp [identityForm, NodeForm.inner, PointForm.text, PointForm.printed, extent, identity,
    coordinateText, Text.natural]

/-- The cuts of an identity, at the last ` - ` and then at the last `[`. -/
theorem splitLast_identityForm (front : List Char) (r : Region) :
    splitLast [' ', '-', ' '] (identityForm front r).inner =
        some (front ++ r.label.toList ++ [' '] ++ (PointForm.printed r.extent.1).text,
          (PointForm.printed r.extent.2).text) ∧
      splitLast ['['] (front ++ r.label.toList ++ [' '] ++ (PointForm.printed r.extent.1).text) =
        some (front ++ r.label.toList ++ [' '], (PointForm.printed r.extent.1).text.tail) := by
  have hsep := splitLast_inner (f := identityForm front r) allBlank_nil allBlank_nil
    (PointForm.denotes_printed r.extent.2)
  have hopen := splitLast_head (f := identityForm front r) allBlank_nil
    (PointForm.denotes_printed r.extent.1)
  simp only [identityForm, List.append_nil] at hopen
  exact ⟨by simpa [identityForm] using hsep, hopen⟩

/-- Texts that end in identities are the same exactly if the regions have one extent and what stands
in front, together with the label, is one text. -/
theorem append_identity_eq_iff {x y : List Char} {r r' : Region} :
    x ++ r.identity.toList = y ++ r'.identity.toList ↔
      x ++ r.label.toList = y ++ r'.label.toList ∧ r.extent = r'.extent := by
  rw [← inner_identityForm, ← inner_identityForm]
  constructor
  · intro h
    obtain ⟨hsep, hopen⟩ := splitLast_identityForm x r
    obtain ⟨hsep', hopen'⟩ := splitLast_identityForm y r'
    rw [h, hsep', Option.some.injEq, Prod.mk.injEq] at hsep
    obtain ⟨hhead, hstop⟩ := hsep
    rw [← hhead, hopen', Option.some.injEq, Prod.mk.injEq] at hopen
    obtain ⟨hlabel, hstart⟩ := hopen
    refine ⟨(List.append_cancel_right hlabel).symm, Prod.ext ?_ ?_⟩
    · exact (PointForm.eq_of_text_printed (congrArg ('[' :: ·) hstart)).symm
    · exact (PointForm.eq_of_text_printed hstop).symm
  · rintro ⟨hlabel, hextent⟩
    unfold identityForm
    rw [hlabel, hextent]

/-- Regions with one identity have one label and the same start and end, even if a label ends in
text that looks like points. -/
theorem identity_eq_iff (r r' : Region) :
    r.identity = r'.identity ↔ r.label = r'.label ∧ r.startLine = r'.startLine ∧
      r.startColumn = r'.startColumn ∧ r.endLine = r'.endLine ∧ r.endColumn = r'.endColumn := by
  calc r.identity = r'.identity
      ↔ [] ++ r.identity.toList = [] ++ r'.identity.toList := by
        rw [List.nil_append, List.nil_append, String.toList_inj]
    _ ↔ [] ++ r.label.toList = [] ++ r'.label.toList ∧ r.extent = r'.extent :=
        append_identity_eq_iff
    _ ↔ _ := by simp [extent, String.toList_inj, and_assoc]

/-- The points of the region stand behind those that its label seems to hold. -/
example :
    (⟨3, 4, 5, 6, "ERROR [1, 1] - [2, 2]"⟩ : Region).identity =
      "ERROR [1, 1] - [2, 2] [3, 4] - [5, 6]" := by
  decide +kernel

end Region

end ParseAudit
