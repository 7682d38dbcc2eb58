import ParseAudit.RepoPath
import ParseAudit.Proofs.Text.Separators
import Mathlib.Data.List.Basic
/-!
# The pieces of a path

A path is read from the pieces that stand between its separators, and the text of a path has
pieces that are known.  So what the text of a path is read as can be said without its characters.

* `ofChars_eq_ofPieces`: a text is read from its pieces alone;
* `splitOnP_toChars`: the pieces of the text of a path;
* `ofChars_toChars_eq_self`, `ofChars_toChars_drive`: a path is read back from its text, but for a
  relative one whose first segment looks like a drive;
* `mem_toChars`, `Proper.backslash_not_mem_toChars`: the characters of the text of a path.
-/

namespace ParseAudit.Anchored

open Chars (splitOnP_cons_of_not splitOnP_cons_separator of_mem_splitOnP splitOnP_append_of_not)

/-! ## Pieces of any text -/

/-- The letter of a drive, if the piece is one: a letter and a colon. -/
def driveLetter? : List Char → Option Char
  | [c, d] => if c.isAlpha && d == ':' then some c else none
  | _ => none

theorem driveLetter?_eq_some_iff {s : List Char} {c : Char} :
    driveLetter? s = some c ↔ c.isAlpha = true ∧ s = [c, ':'] := by
  constructor
  · intro h
    unfold driveLetter? at h
    split at h
    · next a d =>
      split at h
      · next hdrive =>
        have hac : a = c := Option.some.inj h
        simp only [Bool.and_eq_true, beq_iff_eq] at hdrive
        rw [hac] at hdrive ⊢
        exact ⟨hdrive.1, by rw [hdrive.2]⟩
      · cases h
    · cases h
  · rintro ⟨halpha, rfl⟩
    simp [driveLetter?, halpha]

theorem driveLetter?_eq_none_iff {s : List Char} :
    driveLetter? s = none ↔ ∀ c : Char, c.isAlpha = true → s ≠ [c, ':'] := by
  rw [Option.eq_none_iff_forall_ne_some]
  refine forall_congr' fun c => ?_
  rw [ne_eq, driveLetter?_eq_some_iff, not_and]

/-- Reads a path from the pieces between its separators. -/
def ofPieces : List (List Char) → Anchored
  | [] => ⟨.relative, []⟩
  | first :: rest =>
    -- A text that starts with a separator has an empty piece in front.
    if first = [] ∧ rest ≠ [] then ⟨.slash, rest.filter isMeaningful⟩
    else
      match driveLetter? first with
      | some c => ⟨.drive c, rest.filter isMeaningful⟩
      | none => ⟨.relative, (first :: rest).filter isMeaningful⟩

theorem isSeparator_of_isAlpha {c : Char} (h : c.isAlpha = true) : isSeparator c = false := by
  by_contra hsep
  simp only [isSeparator, Bool.not_eq_false, Bool.or_eq_true, beq_iff_eq] at hsep
  rcases hsep with rfl | rfl
  · revert h; decide
  · revert h; decide

theorem ofPieces_slash {rest : List (List Char)} (h : rest ≠ []) :
    ofPieces ([] :: rest) = ⟨.slash, rest.filter isMeaningful⟩ := by
  simp [ofPieces, h]

theorem ofPieces_drive {c : Char} (h : c.isAlpha = true) (rest : List (List Char)) :
    ofPieces ([c, ':'] :: rest) = ⟨.drive c, rest.filter isMeaningful⟩ := by
  simp [ofPieces, driveLetter?, h]

theorem ofPieces_relative {first : List Char} {rest : List (List Char)} (hne : first ≠ [])
    (h : driveLetter? first = none) :
    ofPieces (first :: rest) = ⟨.relative, (first :: rest).filter isMeaningful⟩ := by
  simp [ofPieces, hne, h]

/-- A text that starts with a separator starts at the root directory. -/
theorem splitRoot_separator {c : Char} (h : isSeparator c = true) (cs : List Char) :
    splitRoot (c :: cs) = (.slash, cs) := by
  match cs with
  | [] => simp [splitRoot, h]
  | [d] => simp [splitRoot, h]
  | d :: e :: rest => simp [splitRoot, h]

/-- No piece of a text holds a separator. -/
theorem isSeparator_of_mem_splitOnP {s piece : List Char} (h : piece ∈ s.splitOnP isSeparator) :
    ∀ c ∈ piece, isSeparator c = false := fun _ hc => (of_mem_splitOnP h hc).2

/-- A text is its first piece, up to its end or a separator. -/
theorem splitOnP_eq_cons {s first : List Char} {rest : List (List Char)}
    (h : s.splitOnP isSeparator = first :: rest) :
    s = first ∧ rest = [] ∨ ∃ e tail, isSeparator e = true ∧ s = first ++ e :: tail ∧
      rest = tail.splitOnP isSeparator := by
  induction s generalizing first rest with
  | nil =>
    rw [List.splitOnP_nil, List.cons.injEq] at h
    exact .inl ⟨h.1, h.2.symm⟩
  | cons c cs ih =>
    cases hc : isSeparator c with
    | true =>
      rw [splitOnP_cons_separator hc, List.cons.injEq] at h
      obtain ⟨rfl, rfl⟩ := h
      exact .inr ⟨c, cs, hc, rfl, rfl⟩
    | false =>
      obtain ⟨piece, pieces, hcs⟩ :=
        List.exists_cons_of_ne_nil (List.splitOnP_ne_nil isSeparator cs)
      rw [splitOnP_cons_of_not hc hcs, List.cons.injEq] at h
      obtain ⟨rfl, rfl⟩ := h
      rcases ih hcs with ⟨rfl, rfl⟩ | ⟨e, tail, he, rfl, rfl⟩
      · exact .inl ⟨rfl, rfl⟩
      · exact .inr ⟨e, tail, he, rfl, rfl⟩

/-- A text whose first piece is the name of a drive starts at the root of that drive. -/
theorem splitRoot_drive {c : Char} (h : c.isAlpha = true) :
    splitRoot [c, ':'] = (.drive c, []) ∧
      ∀ e tail, isSeparator e = true → splitRoot (c :: ':' :: e :: tail) = (.drive c, tail) := by
  have hc := isSeparator_of_isAlpha h
  exact ⟨by simp [splitRoot, hc, h], fun e tail he => by simp [splitRoot, hc, h, he]⟩

/-- Any other first piece starts a relative path. -/
theorem splitRoot_relative {s first : List Char} {rest : List (List Char)}
    (hpieces : s.splitOnP isSeparator = first :: rest) (hne : first ≠ [])
    (hdrive : driveLetter? first = none) : splitRoot s = (.relative, s) := by
  have hfree : ∀ c ∈ first, isSeparator c = false :=
    isSeparator_of_mem_splitOnP (hpieces ▸ List.mem_cons_self)
  have hcolon : ∀ {e}, isSeparator e = true → (e == ':') = false := by
    intro e he
    rcases Bool.or_eq_true_iff.1 he with h | h
    · rw [beq_iff_eq.1 h]; rfl
    · rw [beq_iff_eq.1 h]; rfl
  match first with
  | [] => exact absurd rfl hne
  | [c] =>
    have hc := hfree c (by simp)
    rcases splitOnP_eq_cons hpieces with ⟨rfl, -⟩ | ⟨e, tail, he, rfl, -⟩
    · simp [splitRoot, hc]
    · cases tail <;> simp [splitRoot, hc, hcolon he]
  | [c, d] =>
    have hc := hfree c (by simp)
    have hno : ¬(c.isAlpha = true ∧ d = ':') := by simpa [driveLetter?] using hdrive
    rcases splitOnP_eq_cons hpieces with ⟨rfl, -⟩ | ⟨e, tail, he, rfl, -⟩
    · simpa [splitRoot, hc] using hno
    · simpa [splitRoot, hc, he] using hno
  | c :: d :: e :: more =>
    have hc := hfree c (by simp)
    have he := hfree e (by simp)
    rcases splitOnP_eq_cons hpieces with ⟨rfl, -⟩ | ⟨f, tail, -, rfl, -⟩
    · simp [splitRoot, hc, he]
    · simp [splitRoot, hc, he]

/-- A text is read from its pieces alone. -/
theorem ofChars_eq_ofPieces (s : List Char) : ofChars s = ofPieces (s.splitOnP isSeparator) := by
  obtain ⟨first, rest, hpieces⟩ :=
    List.exists_cons_of_ne_nil (List.splitOnP_ne_nil isSeparator s)
  unfold ofChars
  by_cases hfirst : first = []
  · subst hfirst
    rcases splitOnP_eq_cons hpieces with ⟨rfl, -⟩ | ⟨e, tail, he, rfl, rfl⟩
    · rfl
    · rw [hpieces, ofPieces_slash (List.splitOnP_ne_nil _ _), List.nil_append,
        splitRoot_separator he]
      rfl
  · cases hdrive : driveLetter? first with
    | some c =>
      obtain ⟨halpha, rfl⟩ := driveLetter?_eq_some_iff.1 hdrive
      rw [hpieces, ofPieces_drive halpha]
      rcases splitOnP_eq_cons hpieces with ⟨rfl, rfl⟩ | ⟨e, tail, he, rfl, rfl⟩
      · rw [(splitRoot_drive halpha).1]
        rfl
      · have hroot : splitRoot ([c, ':'] ++ e :: tail) = (.drive c, tail) :=
          (splitRoot_drive halpha).2 e tail he
        rw [hroot]
        rfl
    | none =>
      rw [splitRoot_relative hpieces hfirst hdrive, hpieces, ofPieces_relative hfirst hdrive,
        ← hpieces]
      rfl

/-! ## Pieces of the text of a path -/

/-- A path with segments that are read as such, and with a letter for its drive. -/
structure Proper (p : Anchored) : Prop where
  meaningful : ∀ s ∈ p.segments, isMeaningful s = true
  separator : ∀ s ∈ p.segments, ∀ c ∈ s, isSeparator c = false
  letter : ∀ c, p.root = .drive c → c.isAlpha = true

theorem proper_relative {segments : List (List Char)}
    (hmeaningful : ∀ s ∈ segments, isMeaningful s = true)
    (hseparator : ∀ s ∈ segments, ∀ c ∈ s, isSeparator c = false) :
    Proper ⟨.relative, segments⟩ := ⟨hmeaningful, hseparator, nofun⟩

/-- What is read from pieces without separators is proper. -/
theorem proper_ofPieces {pieces : List (List Char)}
    (h : ∀ piece ∈ pieces, ∀ c ∈ piece, isSeparator c = false) : Proper (ofPieces pieces) := by
  have hfilter : ∀ {sub : List (List Char)}, sub ⊆ pieces →
      (∀ s ∈ sub.filter isMeaningful, isMeaningful s = true) ∧
        ∀ s ∈ sub.filter isMeaningful, ∀ c ∈ s, isSeparator c = false := by
    intro sub hsub
    refine ⟨fun s hs => (List.mem_filter.1 hs).2, fun s hs => ?_⟩
    exact h s (hsub (List.mem_filter.1 hs).1)
  rcases pieces with _ | ⟨first, rest⟩
  · exact ⟨nofun, nofun, nofun⟩
  have hrest := hfilter (List.subset_cons_self first rest)
  have hall := hfilter (List.Subset.refl (first :: rest))
  by_cases hfirst : first = []
  · subst hfirst
    by_cases hne : rest = []
    · subst hne
      exact ⟨nofun, nofun, nofun⟩
    · rw [ofPieces_slash hne]
      exact ⟨hrest.1, hrest.2, nofun⟩
  · cases hdrive : driveLetter? first with
    | none =>
      rw [ofPieces_relative hfirst hdrive]
      exact proper_relative hall.1 hall.2
    | some c =>
      obtain ⟨halpha, rfl⟩ := driveLetter?_eq_some_iff.1 hdrive
      rw [ofPieces_drive halpha]
      refine ⟨hrest.1, hrest.2, ?_⟩
      intro d hd
      cases hd
      exact halpha

/-- Whatever is read is proper. -/
theorem proper_ofChars (s : List Char) : Proper (ofChars s) := by
  rw [ofChars_eq_ofPieces]
  exact proper_ofPieces fun piece hpiece => isSeparator_of_mem_splitOnP hpiece

/-- What stands between the slashes in the text of a path. -/
def pieces : Anchored → List (List Char)
  | ⟨.relative, []⟩ => [['.']]
  | ⟨.relative, segments⟩ => segments
  | ⟨.slash, []⟩ => [[], []]
  | ⟨.slash, segments⟩ => [] :: segments
  | ⟨.drive c, []⟩ => [[c, ':'], []]
  | ⟨.drive c, segments⟩ => [c, ':'] :: segments

/-- The pieces of the text of a path that stand in front of its segments. -/
def front : Root → List (List Char)
  | .relative => []
  | .slash => [[]]
  | .drive c => [[c, ':']]

theorem pieces_eq_front_append (root : Root) {l : List (List Char)} (h : l ≠ []) :
    pieces ⟨root, l⟩ = front root ++ l := by
  obtain ⟨s, ss, rfl⟩ := List.exists_cons_of_ne_nil h
  cases root <;> rfl

/-- The last piece of the text of a path stands behind what is in front and some segments. -/
theorem exists_pieces_eq_concat (p : Anchored) :
    ∃ init last, p.pieces = front p.root ++ init ++ [last] ∧ init ⊆ p.segments := by
  obtain ⟨root, segments⟩ := p
  rcases List.eq_nil_or_concat segments with rfl | ⟨init, last, rfl⟩
  · cases root with
    | relative => exact ⟨[], ['.'], rfl, List.nil_subset _⟩
    | slash => exact ⟨[], [], rfl, List.nil_subset _⟩
    | drive c => exact ⟨[], [], rfl, List.nil_subset _⟩
  · rw [List.concat_eq_append, pieces_eq_front_append root (by simp)]
    exact ⟨init, last, (List.append_assoc _ _ _).symm, List.subset_append_left _ _⟩

/-- Pieces in front and others behind them are read as a path with these segments, unless they look
like something else in front. -/
theorem ofPieces_front_append {root : Root} {l : List (List Char)} (hl : l ≠ [])
    (hletter : ∀ c, root = .drive c → c.isAlpha = true)
    (hfirst : root = .relative → ∀ s ∈ l.head?, s ≠ [] ∧ driveLetter? s = none) :
    ofPieces (front root ++ l) = ⟨root, l.filter isMeaningful⟩ := by
  cases root with
  | relative =>
    obtain ⟨s, ss, rfl⟩ := List.exists_cons_of_ne_nil hl
    obtain ⟨hne, hnone⟩ := hfirst rfl s rfl
    exact ofPieces_relative hne hnone
  | slash => exact ofPieces_slash hl
  | drive c => exact ofPieces_drive (hletter c rfl) l

theorem toChars_eq_intercalate (p : Anchored) : p.toChars = ['/'].intercalate p.pieces := by
  obtain ⟨root, segments⟩ := p
  cases root with
  | relative => cases segments <;> rfl
  | slash => cases segments <;> simp [toChars, Root.text, pieces, List.intercalate_cons_cons]
  | drive c => cases segments <;> simp [toChars, Root.text, pieces, List.intercalate_cons_cons]

theorem intercalate_cons {l : List (List Char)} (s : List Char) (h : l ≠ []) :
    ['/'].intercalate (s :: l) = s ++ '/' :: ['/'].intercalate l := by
  cases l with
  | nil => exact absurd rfl h
  | cons t ts => rw [List.intercalate_cons_cons, List.append_assoc, List.singleton_append]

/-- The pieces of texts that are joined by slashes are these texts, and those of the last one. -/
theorem splitOnP_intercalate_concat {init : List (List Char)} (last : List Char)
    (h : ∀ piece ∈ init, ∀ c ∈ piece, isSeparator c = false) :
    (['/'].intercalate (init ++ [last])).splitOnP isSeparator =
      init ++ last.splitOnP isSeparator := by
  induction init with
  | nil => rw [List.nil_append, List.intercalate_singleton, List.nil_append]
  | cons first init ih =>
    have hfirst := h first List.mem_cons_self
    have hinit := ih fun piece hpiece => h piece (List.mem_cons_of_mem first hpiece)
    rw [List.cons_append, intercalate_cons first (by simp),
      List.splitOnP_append_cons_of_forall_mem hfirst '/' rfl, hinit, List.cons_append]

theorem Proper.isSeparator_of_mem_front {p : Anchored} (hp : p.Proper) :
    ∀ piece ∈ front p.root, ∀ c ∈ piece, isSeparator c = false := by
  obtain ⟨root, segments⟩ := p
  intro piece hpiece d hd
  cases root with
  | relative => cases hpiece
  | slash =>
    rw [List.mem_singleton.1 hpiece] at hd
    cases hd
  | drive c =>
    rw [List.mem_singleton.1 hpiece] at hd
    rcases List.mem_cons.1 hd with rfl | hd
    · exact isSeparator_of_isAlpha (hp.letter _ rfl)
    · rw [List.mem_singleton.1 hd]
      decide

/-- The pieces of a proper path hold no separator. -/
theorem Proper.isSeparator_of_mem_pieces {p : Anchored} (hp : p.Proper) :
    ∀ piece ∈ p.pieces, ∀ c ∈ piece, isSeparator c = false := by
  have hfront := hp.isSeparator_of_mem_front
  have hsegments := hp.separator
  obtain ⟨root, segments⟩ := p
  intro piece hpiece
  by_cases hnil : segments = []
  · subst hnil
    cases root with
    | relative =>
      rw [List.mem_singleton.1 hpiece, List.forall_mem_singleton]
      rfl
    | slash =>
      rcases List.mem_cons.1 hpiece with hmem | hmem
      · exact hfront piece (hmem ▸ List.mem_cons_self)
      · rw [List.mem_singleton.1 hmem]
        exact nofun
    | drive c =>
      rcases List.mem_cons.1 hpiece with hmem | hmem
      · exact hfront piece (hmem ▸ List.mem_cons_self)
      · rw [List.mem_singleton.1 hmem]
        exact nofun
  · rw [pieces_eq_front_append root hnil] at hpiece
    rcases List.mem_append.1 hpiece with hmem | hmem
    · exact hfront piece hmem
    · exact hsegments piece hmem

/-- The pieces of the text of a proper path. -/
theorem Proper.splitOnP_toChars {p : Anchored} (hp : p.Proper) :
    p.toChars.splitOnP isSeparator = p.pieces := by
  obtain ⟨init, last, hpieces, -⟩ := p.exists_pieces_eq_concat
  have hfree := hp.isSeparator_of_mem_pieces
  rw [hpieces] at hfree
  rw [toChars_eq_intercalate, hpieces, splitOnP_intercalate_concat last fun piece hpiece =>
    hfree piece (List.mem_append_left _ hpiece)]
  rw [List.splitOnP_eq_singleton (hfree last (by simp))]

theorem eq_of_isMeaningful_eq_false {piece : List Char} (h : isMeaningful piece = false) :
    piece = [] ∨ piece = ['.'] := by
  simpa [isMeaningful, or_iff_not_imp_left] using h

theorem ne_nil_of_isMeaningful {s : List Char} (h : isMeaningful s = true) : s ≠ [] := by
  rintro rfl
  cases h

/-- No path has an empty text. -/
theorem Proper.toChars_ne_nil {p : Anchored} (hp : p.Proper) : p.toChars ≠ [] := by
  intro h
  have hpieces := hp.splitOnP_toChars
  rw [h, List.splitOnP_nil] at hpieces
  obtain ⟨root, segments⟩ := p
  cases segments with
  | nil => cases root <;> cases hpieces
  | cons s ss =>
    have hs : s ≠ [] := ne_nil_of_isMeaningful (hp.meaningful s List.mem_cons_self)
    cases root with
    | relative => exact hs (List.cons.inj hpieces).1.symm
    | slash => cases hpieces
    | drive c => cases hpieces

/-! ## Reading the text of a path -/

theorem Proper.filter_segments {p : Anchored} (hp : p.Proper) :
    p.segments.filter isMeaningful = p.segments := List.filter_eq_self.2 hp.meaningful

/-- A relative path whose first segment looks like a drive is read as a path on that drive. -/
theorem ofChars_toChars_drive {c : Char} {rest : List (List Char)} (hc : c.isAlpha = true)
    (hp : Proper ⟨.relative, [c, ':'] :: rest⟩) :
    ofChars (toChars ⟨.relative, [c, ':'] :: rest⟩) = ⟨.drive c, rest⟩ := by
  have hrest : rest.filter isMeaningful = rest :=
    List.filter_eq_self.2 fun s hs => hp.meaningful s (List.mem_cons_of_mem _ hs)
  rw [ofChars_eq_ofPieces, hp.splitOnP_toChars]
  show ofPieces ([c, ':'] :: rest) = _
  rw [ofPieces_drive hc, hrest]

/-- Any other path is read back from its text. -/
theorem ofChars_toChars_eq_self {p : Anchored} (hp : p.Proper)
    (h : ∀ c rest, c.isAlpha = true → p ≠ ⟨.relative, [c, ':'] :: rest⟩) :
    ofChars p.toChars = p := by
  have hfilter := hp.filter_segments
  rw [ofChars_eq_ofPieces, hp.splitOnP_toChars]
  obtain ⟨root, segments⟩ := p
  by_cases hnil : segments = []
  · subst hnil
    cases root with
    | relative => rfl
    | slash => rfl
    | drive c => exact ofPieces_drive (hp.letter c rfl) [[]]
  · rw [pieces_eq_front_append root hnil, ofPieces_front_append hnil hp.letter, hfilter]
    rintro rfl s hs
    obtain ⟨ss, rfl⟩ := List.head?_eq_some_iff.1 hs
    refine ⟨ne_nil_of_isMeaningful (hp.meaningful s List.mem_cons_self), ?_⟩
    refine driveLetter?_eq_none_iff.2 fun c hc hdrive => ?_
    exact h c ss hc (by rw [hdrive])

/-! ## Longer texts -/

/-- What follows texts that are joined by slashes goes on with the last one. -/
theorem intercalate_concat_append (init : List (List Char)) (last b : List Char) :
    ['/'].intercalate (init ++ [last]) ++ b = ['/'].intercalate (init ++ [last ++ b]) := by
  induction init with
  | nil => simp
  | cons s ss ih =>
    rw [List.cons_append, List.cons_append, intercalate_cons s (by simp),
      intercalate_cons s (by simp), List.append_assoc, List.cons_append, ih]

/-- Behind a segment the text of a path ends in no slash. -/
theorem Proper.getLast?_toChars {p : Anchored} (hp : p.Proper) (h : p.segments ≠ []) :
    p.toChars.getLast? ≠ some '/' := by
  obtain ⟨root, segments⟩ := p
  rcases List.eq_nil_or_concat segments with rfl | ⟨init, last, rfl⟩
  · exact absurd rfl h
  have hmem : last ∈ init.concat last := by simp
  have hne := ne_nil_of_isMeaningful (hp.meaningful last hmem)
  rw [toChars_eq_intercalate, pieces_eq_front_append root h, List.concat_eq_append,
    ← List.append_assoc, ← List.nil_append last, ← intercalate_concat_append,
    List.getLast?_append_of_ne_nil _ hne]
  intro hlast
  have hslash := hp.separator last hmem '/' (List.mem_of_getLast? hlast)
  cases hslash

/-- More texts only make what is joined longer. -/
theorem prefix_intercalate_concat (init : List (List Char)) (last : List Char)
    (rest : List (List Char)) :
    ['/'].intercalate (init ++ [last]) <+: ['/'].intercalate (init ++ last :: rest) := by
  induction init with
  | nil =>
    cases rest with
    | nil => exact List.prefix_rfl
    | cons s ss =>
      rw [List.nil_append, List.nil_append, List.intercalate_singleton,
        intercalate_cons last (by simp)]
      exact List.prefix_append _ _
  | cons s ss ih =>
    rw [List.cons_append, List.cons_append, intercalate_cons s (by simp),
      intercalate_cons s (by simp)]
    exact (List.prefix_append_right_inj s).2 ((List.prefix_cons_inj '/').2 ih)

/-- A piece with a blank in it says something, and is no drive. -/
theorem isMeaningful_of_mem_space {s : List Char} (h : ' ' ∈ s) :
    isMeaningful s = true ∧ driveLetter? s = none := by
  constructor
  · have hnil : s ≠ [] := List.ne_nil_of_mem h
    have hdot : s ≠ ['.'] := by
      rintro rfl
      revert h
      decide
    simp [isMeaningful, hnil, hdot]
  · refine driveLetter?_eq_none_iff.2 fun c hc hs => ?_
    rw [hs] at h
    rcases List.mem_cons.1 h with rfl | h
    · revert hc
      decide
    · revert h
      decide

/-- When a piece with a blank is put in the place of the last piece of a path, the pieces in front
of it stay. -/
theorem pieces_ofPieces_concat {p : Anchored} (hp : p.Proper) (hread : ofPieces p.pieces = p)
    {init rest : List (List Char)} {last s : List Char}
    (hpieces : p.pieces = front p.root ++ init ++ [last]) (hinit : init ⊆ p.segments)
    (hs : ' ' ∈ s) :
    (ofPieces (front p.root ++ init ++ s :: rest)).pieces =
      front p.root ++ init ++ s :: rest.filter isMeaningful := by
  obtain ⟨hmeaningful, hnone⟩ := isMeaningful_of_mem_space hs
  have hfilter : (init ++ s :: rest).filter isMeaningful =
      init ++ s :: rest.filter isMeaningful := by
    rw [List.filter_append, List.filter_eq_self.2 fun t ht => hp.meaningful t (hinit ht),
      List.filter_cons_of_pos hmeaningful]
  have hfirst : p.root = .relative →
      ∀ t ∈ (init ++ s :: rest).head?, t ≠ [] ∧ driveLetter? t = none := by
    intro hroot t ht
    cases init with
    | nil =>
      cases ht
      exact ⟨List.ne_nil_of_mem hs, hnone⟩
    | cons first more =>
      obtain rfl : first = t := Option.some.inj ht
      refine ⟨ne_nil_of_isMeaningful (hp.meaningful first (hinit List.mem_cons_self)), ?_⟩
      -- What looked like a drive in front would not have been read as a segment.
      refine driveLetter?_eq_none_iff.2 fun c hc hdrive => ?_
      rw [hroot] at hpieces
      have hdriveRoot : (ofPieces p.pieces).root = .drive c := by
        rw [hpieces, hdrive]
        exact congrArg Anchored.root (ofPieces_drive hc _)
      rw [hread, hroot] at hdriveRoot
      cases hdriveRoot
  rw [List.append_assoc, ofPieces_front_append (by simp) hp.letter hfirst, hfilter,
    pieces_eq_front_append _ (by simp), List.append_assoc]

/-- A text that starts with the text of a path and a blank is read as a path that does so too. -/
theorem prefix_toChars_ofChars {p : Anchored} (hp : p.Proper) (hread : ofChars p.toChars = p)
    (more : List Char) :
    p.toChars ++ [' '] <+: (ofChars (p.toChars ++ ' ' :: more)).toChars := by
  have hback : ofPieces p.pieces = p := by
    rw [← hp.splitOnP_toChars, ← ofChars_eq_ofPieces, hread]
  obtain ⟨init, last, hpieces, hinit⟩ := p.exists_pieces_eq_concat
  have hfree := hp.isSeparator_of_mem_pieces
  rw [hpieces] at hfree
  obtain ⟨q, rest, hmore⟩ := List.exists_cons_of_ne_nil (List.splitOnP_ne_nil isSeparator more)
  have htext : p.toChars ++ ' ' :: more =
      ['/'].intercalate (front p.root ++ init ++ [last ++ ' ' :: more]) := by
    rw [toChars_eq_intercalate, hpieces, intercalate_concat_append]
  have hsplit : (p.toChars ++ ' ' :: more).splitOnP isSeparator =
      front p.root ++ init ++ (last ++ ' ' :: q) :: rest := by
    rw [htext, splitOnP_intercalate_concat _ fun piece h => hfree piece (List.mem_append_left _ h),
      splitOnP_append_of_not (hfree last (by simp)) (splitOnP_cons_of_not rfl hmore)]
  rw [ofChars_eq_ofPieces, hsplit, toChars_eq_intercalate (ofPieces _),
    pieces_ofPieces_concat hp hback hpieces hinit (by simp)]
  have hlonger : p.toChars ++ ' ' :: q =
      ['/'].intercalate (front p.root ++ init ++ [last ++ ' ' :: q]) := by
    rw [toChars_eq_intercalate, hpieces, intercalate_concat_append]
  have hblank : p.toChars ++ [' '] <+: p.toChars ++ ' ' :: q :=
    (List.prefix_append_right_inj _).2 (List.prefix_append [' '] q)
  rw [hlonger] at hblank
  exact hblank.trans (prefix_intercalate_concat _ _ _)

/-! ## The characters of a path -/

/-- The segments that are read from pieces are some of them, and a drive is read from its piece. -/
theorem mem_of_ofPieces (pieces : List (List Char)) :
    (ofPieces pieces).segments ⊆ pieces ∧
      ∀ c, (ofPieces pieces).root = .drive c → [c, ':'] ∈ pieces := by
  rcases pieces with _ | ⟨first, rest⟩
  · exact ⟨nofun, nofun⟩
  by_cases hfirst : first = []
  · subst hfirst
    by_cases hne : rest = []
    · subst hne
      exact ⟨nofun, nofun⟩
    · rw [ofPieces_slash hne]
      exact ⟨fun s hs => List.mem_cons_of_mem _ (List.mem_filter.1 hs).1, nofun⟩
  · cases hdrive : driveLetter? first with
    | none =>
      rw [ofPieces_relative hfirst hdrive]
      exact ⟨fun s hs => (List.mem_filter.1 hs).1, nofun⟩
    | some c =>
      obtain ⟨halpha, rfl⟩ := driveLetter?_eq_some_iff.1 hdrive
      rw [ofPieces_drive halpha]
      refine ⟨fun s hs => List.mem_cons_of_mem _ (List.mem_filter.1 hs).1, ?_⟩
      rintro d ⟨⟩
      exact List.mem_cons_self

/-- The text of a path holds the characters of its segments and of its drive, and what is put
between them. -/
theorem mem_toChars {p : Anchored} {c : Char} (h : c ∈ p.toChars) :
    c ∈ ['/', '.', ':'] ∨ (∃ s ∈ p.segments, c ∈ s) ∨ p.root = .drive c := by
  obtain ⟨root, segments⟩ := p
  have hsegments : c ∈ ['/'].intercalate segments →
      c ∈ ['/', '.', ':'] ∨ (∃ s ∈ segments, c ∈ s) ∨ root = .drive c := by
    intro h
    rcases Chars.mem_intercalate h with hput | hc
    · exact .inl (List.mem_cons.2 (.inl (List.mem_singleton.1 hput)))
    · exact .inr (.inl hc)
  cases root with
  | relative =>
    cases segments with
    | nil =>
      obtain rfl := List.mem_singleton.1 h
      exact .inl (by decide)
    | cons s ss => exact hsegments h
  | slash =>
    rcases List.mem_cons.1 h with rfl | h
    · exact .inl (by decide)
    · exact hsegments h
  | drive d =>
    rcases List.mem_append.1 h with h | h
    · rcases List.mem_cons.1 h with rfl | h
      · exact .inr (.inr rfl)
      · have hput : [':', '/'] ⊆ ['/', '.', ':'] := by decide
        exact .inl (hput h)
    · exact hsegments h

/-- The text of a path has slashes of one kind. -/
theorem Proper.backslash_not_mem_toChars {p : Anchored} (hp : p.Proper) : '\\' ∉ p.toChars := by
  intro h
  rcases mem_toChars h with hput | ⟨segment, hsegment, hmem⟩ | hdrive
  · revert hput
    decide
  · cases hp.separator segment hsegment _ hmem
  · have halpha := hp.letter _ hdrive
    revert halpha
    decide

end ParseAudit.Anchored
