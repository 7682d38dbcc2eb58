import ParseAudit.Proofs.RepoPath.Reanchored
/-!
# The canonical form of paths

However a path is given, its text has one form: no backslash, no slash behind another one, no `.`
segment but in the text `.` itself, and a slash at the end of a bare root only.  The names in it are
the names in the given text, without those of the base directory that the path was found in.

* `Canonical`, `Proper.canonical_toChars`: the form, and that every text of a path has it;
* `segmentsOf_eq`: the names in a text, by what it is read as;
* `exists_segmentsOf_eq_append`: the names that a path loses in its base directory;
* `canonical_normalize`: the form of normalized paths, and the names in them;
* `mem_normalize_of_isBlank`: blanks never vanish.
-/

namespace ParseAudit

open Chars (splitOnP_cons_of_not splitOnP_cons_separator of_mem_splitOnP)

namespace Anchored

/-- The form of the text of a path. -/
structure Canonical (s : List Char) : Prop where
  ne_nil : s ≠ []
  backslash : '\\' ∉ s
  slashes : ¬['/', '/'] <:+: s
  /-- No segment is `.` unless the whole text is. -/
  dot : ['.'] ∈ s.splitOn '/' → s = ['.']
  /-- Only a bare root ends in a slash. -/
  last : s.getLast? = some '/' → s = ['/'] ∨ ∃ c : Char, c.isAlpha = true ∧ s = [c, ':', '/']

/-! ## The text of a path -/

/-- Where there is no backslash, slashes are all the separators. -/
theorem splitOn_eq_splitOnP {s : List Char} (h : '\\' ∉ s) :
    s.splitOn '/' = s.splitOnP isSeparator := by
  induction s with
  | nil => rfl
  | cons c cs ih =>
    have hc : (c == '/') = isSeparator c := by
      have hne : (c == '\\') = false := beq_false_of_ne fun heq => h (heq ▸ List.mem_cons_self)
      rw [isSeparator, hne, Bool.or_false]
    have hcs := ih fun hmem => h (List.mem_cons_of_mem c hmem)
    rw [List.splitOn_eq_splitOnP] at hcs ⊢
    rw [List.splitOnP_cons_eq_if_modifyHead, List.splitOnP_cons_eq_if_modifyHead, hc, hcs]

/-- Behind its first piece the text of a path has segments only, unless it is a bare root. -/
theorem tail_pieces_subset (root : Root) {segments : List (List Char)} (h : segments ≠ []) :
    (pieces ⟨root, segments⟩).tail ⊆ segments := by
  rw [pieces_eq_front_append root h]
  cases root with
  | relative => exact List.drop_one ▸ List.drop_subset 1 segments
  | slash => exact List.Subset.refl segments
  | drive c => exact List.Subset.refl segments

/-- No segment is written as `.`, but a path without segments may be. -/
theorem Proper.eq_of_dot_mem_pieces {p : Anchored} (hp : p.Proper) (h : ['.'] ∈ p.pieces) :
    p = ⟨.relative, []⟩ := by
  obtain ⟨root, segments⟩ := p
  by_cases hnil : segments = []
  · subst hnil
    cases root with
    | relative => rfl
    | slash => simp [pieces] at h
    | drive c => simp [pieces] at h
  · rw [pieces_eq_front_append root hnil] at h
    rcases List.mem_append.1 h with hfront | hsegment
    · cases root <;> simp [front] at hfront
    · cases hp.meaningful _ hsegment

/-- Two slashes would have an empty piece between them. -/
theorem Proper.not_slashes_infix {p : Anchored} (hp : p.Proper) : ¬['/', '/'] <:+: p.toChars := by
  rintro ⟨before, after, htext⟩
  have hpieces : p.pieces = before.splitOnP isSeparator ++ [] :: after.splitOnP isSeparator := by
    rw [← hp.splitOnP_toChars, ← htext, List.append_assoc]
    exact List.splitOnP_append_cons before ('/' :: after) rfl
  obtain ⟨first, more, hbefore⟩ :=
    List.exists_cons_of_ne_nil (List.splitOnP_ne_nil isSeparator before)
  obtain ⟨root, segments⟩ := p
  rw [hbefore, List.cons_append] at hpieces
  by_cases hnil : segments = []
  · -- A bare root has two pieces at most.
    subst hnil
    have hlength := congrArg List.length hpieces
    have hafter := List.length_pos_of_ne_nil (List.splitOnP_ne_nil isSeparator after)
    have hbound : (pieces ⟨root, []⟩).length ≤ 2 := by cases root <;> simp [pieces]
    simp only [List.length_cons, List.length_append] at hlength
    omega
  · have hmem : [] ∈ (pieces ⟨root, segments⟩).tail := by
      rw [hpieces]
      simp
    exact ne_nil_of_isMeaningful (hp.meaningful [] (tail_pieces_subset root hnil hmem)) rfl

theorem Proper.eq_of_getLast?_toChars {p : Anchored} (hp : p.Proper)
    (h : p.toChars.getLast? = some '/') :
    p.toChars = ['/'] ∨ ∃ c : Char, c.isAlpha = true ∧ p.toChars = [c, ':', '/'] := by
  by_cases hnil : p.segments = []
  · obtain ⟨root, segments⟩ := p
    subst hnil
    cases root with
    | relative => cases h
    | slash => exact .inl rfl
    | drive c => exact .inr ⟨c, hp.letter c rfl, rfl⟩
  · exact absurd h (hp.getLast?_toChars hnil)

/-- The text of every path is in canonical form. -/
theorem Proper.canonical_toChars {p : Anchored} (hp : p.Proper) : Canonical p.toChars where
  ne_nil := hp.toChars_ne_nil
  backslash := hp.backslash_not_mem_toChars
  slashes := hp.not_slashes_infix
  dot := by
    rw [splitOn_eq_splitOnP hp.backslash_not_mem_toChars, hp.splitOnP_toChars]
    intro hdot
    rw [hp.eq_of_dot_mem_pieces hdot]
    rfl
  last := hp.eq_of_getLast?_toChars

/-! ## The names in a text -/

/-- The name of the drive that a path starts from, if it starts from one. -/
def driveSegments : Root → List (List Char)
  | .relative => []
  | .slash => []
  | .drive c => [[c, ':']]

theorem isMeaningful_driveName (c : Char) : isMeaningful [c, ':'] = true := by simp [isMeaningful]

theorem filter_front (root : Root) : (front root).filter isMeaningful = driveSegments root := by
  cases root with
  | relative => rfl
  | slash => rfl
  | drive c => exact List.filter_cons_of_pos (isMeaningful_driveName c)

/-- The names in a text are the name of its drive and its segments. -/
theorem segmentsOf_eq (s : List Char) :
    segmentsOf s = driveSegments (ofChars s).root ++ (ofChars s).segments := by
  rw [ofChars_eq_ofPieces]
  unfold segmentsOf
  obtain ⟨first, rest, hpieces⟩ :=
    List.exists_cons_of_ne_nil (List.splitOnP_ne_nil isSeparator s)
  rw [hpieces]
  by_cases hslash : first = [] ∧ rest ≠ []
  · obtain ⟨rfl, hrest⟩ := hslash
    rw [ofPieces_slash hrest]
    rfl
  · cases hdrive : driveLetter? first with
    | none =>
      simp only [ofPieces, if_neg hslash, hdrive]
      rfl
    | some c =>
      obtain ⟨hc, rfl⟩ := driveLetter?_eq_some_iff.1 hdrive
      rw [ofPieces_drive hc, List.filter_cons_of_pos (isMeaningful_driveName c)]
      rfl

/-- The text of a path has the names that the path has. -/
theorem Proper.segmentsOf_toChars {p : Anchored} (hp : p.Proper) :
    segmentsOf p.toChars = driveSegments p.root ++ p.segments := by
  have hfilter := hp.filter_segments
  unfold segmentsOf
  rw [hp.splitOnP_toChars]
  obtain ⟨root, segments⟩ := p
  by_cases hnil : segments = []
  · subst hnil
    cases root with
    | relative => rfl
    | slash => rfl
    | drive c => exact List.filter_cons_of_pos (isMeaningful_driveName c)
  · rw [pieces_eq_front_append root hnil, List.filter_append, filter_front, hfilter]

/-- The same names, but perhaps for the case of the letter of a drive in front. -/
def SameButDriveName (a b : List (List Char)) : Prop :=
  a = b ∨ ∃ c d : Char, ∃ rest, c.isAlpha = true ∧ c.toLower = d.toLower ∧
    a = [c, ':'] :: rest ∧ b = [d, ':'] :: rest

theorem sameButDriveName_of_same {r r' : Root} (h : r.same r' = true)
    (hletter : ∀ c, r = .drive c → c.isAlpha = true) (segments : List (List Char)) :
    SameButDriveName (driveSegments r ++ segments) (driveSegments r' ++ segments) := by
  cases r with
  | relative => cases h
  | slash =>
    cases r' with
    | relative | drive d => cases h
    | slash => exact .inl rfl
  | drive c =>
    cases r' with
    | relative | slash => cases h
    | drive d => exact .inr ⟨c, d, segments, hletter c rfl, beq_iff_eq.1 h, rfl, rfl⟩

end Anchored

namespace RepoPath

open Anchored

variable {text base : String}

/-- What stands between the slashes of a path and says something. -/
def names (p : RepoPath) : List (List Char) := (p.text.toList.splitOn '/').filter isMeaningful

theorem canonical_text_normalize (text base : String) :
    Canonical (normalize text base).text.toList := by
  rw [toList_normalize]
  exact ((proper_ofChars text.toList).seenFrom _).canonical_toChars

theorem canonical_text_new (text : String) : Canonical (new text).text.toList := by
  rw [toList_new]
  exact (proper_ofChars text.toList).canonical_toChars

theorem names_eq_segmentsOf {p : RepoPath} (h : Canonical p.text.toList) :
    p.names = segmentsOf p.text.toList := by
  unfold names segmentsOf
  rw [splitOn_eq_splitOnP h.backslash]

/-- A path that is not found in the base directory keeps its names. -/
theorem names_new (text : String) : (new text).names = segmentsOf text.toList := by
  rw [names_eq_segmentsOf (canonical_text_new text), toList_new,
    (proper_ofChars text.toList).segmentsOf_toChars, ← segmentsOf_eq]

/-- A path in the base directory loses the names of the base directory, which stand in front. -/
theorem exists_segmentsOf_eq_append (h : IsUnder text base) :
    ∃ lost, segmentsOf text.toList = lost ++ (normalize text base).names ∧
      SameButDriveName lost (segmentsOf base.toList) := by
  obtain ⟨rest, hsegments, hchars, hproper⟩ := exists_rest_of_isUnder h
  have hnames : (normalize text base).names = rest := by
    rw [names_eq_segmentsOf (canonical_text_normalize text base), hchars]
    exact hproper.segmentsOf_toChars
  refine ⟨driveSegments (ofChars text.toList).root ++ (ofChars base.toList).segments, ?_, ?_⟩
  · rw [hnames, segmentsOf_eq, hsegments, List.append_assoc]
  · rw [segmentsOf_eq base.toList]
    exact sameButDriveName_of_same h.1 (proper_ofChars text.toList).letter _

/-- However a path is given, its text is in canonical form, and the names in it are the names in
the given text, in their order.  Seen from a base directory that it lies in, a path loses the names
of the base directory in front, and no others. -/
theorem canonical_normalize (text base : String) :
    (Canonical (new text).text.toList ∧ Canonical (normalize text base).text.toList ∧
      ∀ directory segment, Canonical (join directory segment).text.toList) ∧
    (new text).names = segmentsOf text.toList ∧
    (¬IsUnder text base → (normalize text base).names = segmentsOf text.toList) ∧
    (IsUnder text base → ∃ lost, segmentsOf text.toList = lost ++ (normalize text base).names ∧
      SameButDriveName lost (segmentsOf base.toList)) := by
  refine ⟨⟨canonical_text_new text, canonical_text_normalize text base, ?_⟩, names_new text, ?_,
    exists_segmentsOf_eq_append⟩
  · intro directory segment
    exact canonical_text_new _
  · intro h
    rw [normalize_of_not_isUnder h, names_new]

/-- A base directory on a drive: a path in it that is spelled oddly and has a name in it that looks
like a drive, and a neighbour of the base directory. -/
theorem canonical_normalize_drive :
    let base := "c:/w/."
    let text := "C:\\w\\.\\b//C:\\."
    (IsUnder text base ∧ normalize text base = ⟨"b/C:"⟩ ∧ Canonical "b/C:".toList ∧
      ∃ lost, segmentsOf text.toList = lost ++ ["b".toList, "C:".toList] ∧
        SameButDriveName lost ["c:".toList, "w".toList]) ∧
    ¬IsUnder "C:\\wx/" base ∧ (normalize "C:\\wx/" base).names = ["C:".toList, "wx".toList] := by
  intro base text
  have hunder : IsUnder text base := by decide +kernel
  have hbeside : ¬IsUnder "C:\\wx/" base := by decide +kernel
  have hnormal : normalize text base = ⟨"b/C:"⟩ := by decide +kernel
  have hnames : (normalize text base).names = ["b".toList, "C:".toList] ∧
      segmentsOf base.toList = ["c:".toList, "w".toList] := by decide +kernel
  obtain ⟨lost, happ, hsame⟩ := (canonical_normalize text base).2.2.2 hunder
  have hform := (canonical_normalize text base).1.2.1
  rw [hnames.1] at happ
  rw [hnames.2] at hsame
  rw [hnormal] at hform
  refine ⟨⟨hunder, hnormal, hform, lost, happ, hsame⟩, hbeside, ?_⟩
  rw [(canonical_normalize "C:\\wx/" base).2.2.1 hbeside]
  decide +kernel

/-! ## Blanks -/

/-- No letter is blank. -/
theorem isAlpha_of_isBlank {c : Char} (h : isBlank c = true) : c.isAlpha = false := by
  refine eq_false_of_ne_true fun halpha => ?_
  have hletter : 65 ≤ c.toNat ∧ c.toNat ≤ 90 ∨ 97 ≤ c.toNat ∧ c.toNat ≤ 122 := by
    rcases Bool.or_eq_true_iff.1 halpha with hupper | hlower
    · exact .inl (of_decide_eq_true hupper)
    · obtain ⟨hfirst, hlast⟩ := Bool.and_eq_true_iff.1 hlower
      exact .inr ⟨of_decide_eq_true hfirst, of_decide_eq_true hlast⟩
  simp only [isBlank, Bool.or_eq_true, Bool.and_eq_true, decide_eq_true_eq, beq_iff_eq] at h
  omega

/-- A character that separates nothing stands in a piece. -/
theorem exists_mem_splitOnP {s : List Char} {c : Char} (hc : isSeparator c = false) (h : c ∈ s) :
    ∃ piece ∈ s.splitOnP isSeparator, c ∈ piece := by
  induction s with
  | nil => cases h
  | cons d ds ih =>
    obtain ⟨first, rest, hds⟩ := List.exists_cons_of_ne_nil (List.splitOnP_ne_nil isSeparator ds)
    rw [hds] at ih
    cases hd : isSeparator d with
    | true =>
      rw [splitOnP_cons_separator hd, hds]
      rcases List.mem_cons.1 h with rfl | h
      · rw [hd] at hc
        cases hc
      · obtain ⟨piece, hpiece, hmem⟩ := ih h
        exact ⟨piece, List.mem_cons_of_mem [] hpiece, hmem⟩
    | false =>
      rw [splitOnP_cons_of_not hd hds]
      rcases List.mem_cons.1 h with rfl | h
      · exact ⟨c :: first, List.mem_cons_self, List.mem_cons_self⟩
      · obtain ⟨piece, hpiece, hmem⟩ := ih h
        rcases List.mem_cons.1 hpiece with rfl | hpiece
        · exact ⟨d :: piece, List.mem_cons_self, List.mem_cons_of_mem d hmem⟩
        · exact ⟨piece, List.mem_cons_of_mem _ hpiece, hmem⟩

/-- A blank stands in a name. -/
theorem exists_mem_segmentsOf {s : List Char} {c : Char} (hc : isBlank c = true) (h : c ∈ s) :
    ∃ segment ∈ segmentsOf s, c ∈ segment := by
  have hsep : isSeparator c = false := by
    by_contra hsep
    simp only [isSeparator, Bool.not_eq_false, Bool.or_eq_true, beq_iff_eq] at hsep
    rcases hsep with rfl | rfl
    · revert hc; decide
    · revert hc; decide
  obtain ⟨piece, hpiece, hmem⟩ := exists_mem_splitOnP hsep h
  refine ⟨piece, List.mem_filter.2 ⟨hpiece, ?_⟩, hmem⟩
  by_contra hnot
  rcases eq_of_isMeaningful_eq_false (by simpa using hnot) with rfl | rfl
  · cases hmem
  · rw [List.mem_singleton.1 hmem] at hc
    revert hc
    decide

/-- The characters of a name are characters of the text. -/
theorem mem_of_mem_segmentsOf {s segment : List Char} (h : segment ∈ segmentsOf s) {c : Char}
    (hc : c ∈ segment) : c ∈ s := (of_mem_splitOnP (List.mem_filter.1 h).1 hc).1

/-- A blank in a path vanishes nowhere but in a base directory that has it too. -/
theorem mem_normalize_of_isBlank {c : Char} (hc : isBlank c = true) (hbase : c ∉ base.toList)
    (h : c ∈ text.toList) : c ∈ (normalize text base).text.toList := by
  obtain ⟨segment, hsegment, hmem⟩ := exists_mem_segmentsOf hc h
  have hkept : segment ∈ (normalize text base).names → c ∈ (normalize text base).text.toList := by
    rw [names_eq_segmentsOf (canonical_text_normalize text base)]
    exact fun hname => mem_of_mem_segmentsOf hname hmem
  by_cases hunder : IsUnder text base
  · obtain ⟨lost, happ, hsame⟩ := exists_segmentsOf_eq_append hunder
    rw [happ] at hsegment
    rcases List.mem_append.1 hsegment with hlost | hname
    · exfalso
      rcases hsame with rfl | ⟨letter, letter', rest, halpha, -, rfl, hrest⟩
      · exact hbase (mem_of_mem_segmentsOf hlost hmem)
      · rcases List.mem_cons.1 hlost with rfl | hlost
        · -- The name of a drive is a letter and a colon.
          rcases List.mem_cons.1 hmem with rfl | hmem
          · rw [isAlpha_of_isBlank hc] at halpha
            cases halpha
          · rw [List.mem_singleton.1 hmem] at hc
            revert hc
            decide
        · have hin : segment ∈ segmentsOf base.toList := by
            rw [hrest]
            exact List.mem_cons_of_mem _ hlost
          exact hbase (mem_of_mem_segmentsOf hin hmem)
    · exact hkept hname
  · refine hkept ?_
    rw [normalize_of_not_isUnder hunder, names_new]
    exact hsegment

end RepoPath

end ParseAudit
