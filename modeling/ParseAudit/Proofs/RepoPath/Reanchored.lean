import ParseAudit.Proofs.RepoPath.Twice
/-!
# Paths under a base directory

A path that is put behind an absolute base directory is normalized to the path that it was, and a
path that is seen from the base directory names the same place again behind it.  Only the case of a
drive letter may be lost, since a base directory is found on its drive in either case.

* `isAbsolute_iff`: the texts with a root of their own;
* `ofChars_behind`: what a text behind an absolute base directory is read as;
* `IsUnder`, `exists_rest_of_isUnder`: the paths that lie in a base directory, by their segments;
* `normalize_reanchored`: normalizing and putting behind the base directory undo each other.
-/

namespace ParseAudit

open Chars (splitOnP_cons_separator)

namespace Root

theorem same_self {r : Root} (h : r ≠ .relative) : r.same r = true := by
  cases r with
  | relative => exact absurd rfl h
  | slash => rfl
  | drive c => exact beq_self_eq_true c.toLower

/-- Two paths in one base directory have one root. -/
theorem same_of_same {r r' base : Root} (h : r.same base = true) (h' : r'.same base = true) :
    r.same r' = true := by
  cases base with
  | relative => cases r <;> cases h
  | slash =>
    cases r <;> cases h
    cases r' <;> cases h'
    rfl
  | drive d =>
    cases r with
    | relative | slash => cases h
    | drive c =>
      cases r' with
      | relative | slash => cases h'
      | drive c' => exact beq_iff_eq.2 ((beq_iff_eq.1 h).trans (beq_iff_eq.1 h').symm)

end Root

namespace Anchored

/-- A text that starts with a separator, or with the name of a drive as its first segment. -/
def StartsAtRoot (s : List Char) : Prop :=
  (∃ c rest, isSeparator c = true ∧ s = c :: rest) ∨
    ∃ c, c.isAlpha = true ∧
      (s = [c, ':'] ∨ ∃ e rest, isSeparator e = true ∧ s = c :: ':' :: e :: rest)

theorem root_ofChars (s : List Char) : (ofChars s).root = (splitRoot s).1 := rfl

/-- These are the texts with a root of their own. -/
theorem startsAtRoot_iff {s : List Char} : StartsAtRoot s ↔ (ofChars s).root ≠ .relative := by
  rw [root_ofChars]
  constructor
  · rintro (⟨c, rest, hc, rfl⟩ | ⟨c, hc, rfl | ⟨e, rest, he, rfl⟩⟩)
    · rw [splitRoot_separator hc]
      exact nofun
    · rw [(splitRoot_drive hc).1]
      exact nofun
    · rw [(splitRoot_drive hc).2 e rest he]
      exact nofun
  · intro hroot
    obtain ⟨first, rest, hpieces⟩ :=
      List.exists_cons_of_ne_nil (List.splitOnP_ne_nil isSeparator s)
    have hcut := splitOnP_eq_cons hpieces
    by_cases hfirst : first = []
    · -- An empty piece stands in front of a separator, unless there is no text at all.
      subst hfirst
      rcases hcut with ⟨rfl, -⟩ | ⟨e, tail, he, rfl, -⟩
      · exact absurd rfl hroot
      · exact .inl ⟨e, tail, he, rfl⟩
    · cases hdrive : driveLetter? first with
      | none =>
        rw [splitRoot_relative hpieces hfirst hdrive] at hroot
        exact absurd rfl hroot
      | some c =>
        obtain ⟨hc, rfl⟩ := driveLetter?_eq_some_iff.1 hdrive
        rcases hcut with ⟨rfl, -⟩ | ⟨e, tail, he, rfl, -⟩
        · exact .inr ⟨c, hc, .inl rfl⟩
        · exact .inr ⟨c, hc, .inr ⟨e, tail, he, rfl⟩⟩

/-- The segments of a text without a root of its own are its meaningful pieces. -/
theorem ofChars_of_relative {s : List Char} (h : (ofChars s).root = .relative) :
    ofChars s = ⟨.relative, (s.splitOnP isSeparator).filter isMeaningful⟩ := by
  rw [ofChars_eq_ofPieces] at h ⊢
  obtain ⟨first, rest, hpieces⟩ :=
    List.exists_cons_of_ne_nil (List.splitOnP_ne_nil isSeparator s)
  rw [hpieces] at h ⊢
  by_cases hslash : first = [] ∧ rest ≠ []
  · obtain ⟨rfl, hrest⟩ := hslash
    rw [ofPieces_slash hrest] at h
    cases h
  · cases hdrive : driveLetter? first with
    | none => simp only [ofPieces, if_neg hslash, hdrive]
    | some c =>
      obtain ⟨hc, rfl⟩ := driveLetter?_eq_some_iff.1 hdrive
      rw [ofPieces_drive hc] at h
      cases h

/-- Pieces behind those of an absolute path are segments of it, or say nothing. -/
theorem ofPieces_append {pieces : List (List Char)} (h : (ofPieces pieces).root ≠ .relative)
    (more : List (List Char)) :
    ofPieces (pieces ++ more) =
      ⟨(ofPieces pieces).root, (ofPieces pieces).segments ++ more.filter isMeaningful⟩ := by
  cases pieces with
  | nil => exact absurd rfl h
  | cons first rest =>
    rw [List.cons_append]
    by_cases hslash : first = [] ∧ rest ≠ []
    · obtain ⟨rfl, hrest⟩ := hslash
      rw [ofPieces_slash hrest, ofPieces_slash (List.append_ne_nil_of_left_ne_nil hrest more),
        List.filter_append]
    · cases hdrive : driveLetter? first with
      | none =>
        have hroot : (ofPieces (first :: rest)).root = .relative := by
          simp only [ofPieces, hdrive, if_neg hslash]
        exact absurd hroot h
      | some c =>
        obtain ⟨hc, rfl⟩ := driveLetter?_eq_some_iff.1 hdrive
        rw [ofPieces_drive hc, ofPieces_drive hc, List.filter_append]

/-- A text behind an absolute base directory goes on with the segments of the base directory,
whatever it would be read as on its own. -/
theorem ofChars_behind {base : List Char} (h : (ofChars base).root ≠ .relative) (s : List Char) :
    ofChars (base ++ '/' :: s) =
      ⟨(ofChars base).root,
        (ofChars base).segments ++ (s.splitOnP isSeparator).filter isMeaningful⟩ := by
  have hpieces : (base ++ '/' :: s).splitOnP isSeparator =
      base.splitOnP isSeparator ++ s.splitOnP isSeparator := List.splitOnP_append_cons base s rfl
  rw [ofChars_eq_ofPieces base] at h ⊢
  rw [ofChars_eq_ofPieces, hpieces, ofPieces_append h]

/-! ## Lying in a base directory -/

/-- A path lies in a base directory if it has the same root, and if the segments of the base
directory come first. -/
def IsBelow (p base : Anchored) : Prop :=
  p.root.same base.root = true ∧ base.segments <+: p.segments

theorem below?_eq_none_iff {p base : Anchored} : p.below? base = none ↔ ¬p.IsBelow base := by
  rw [Option.eq_none_iff_forall_ne_some]
  constructor
  · rintro h ⟨hroot, rest, hrest⟩
    exact h rest (below?_eq_some_iff.2 ⟨hroot, hrest.symm⟩)
  · intro h rest hrest
    obtain ⟨hroot, hsegments⟩ := below?_eq_some_iff.1 hrest
    exact h ⟨hroot, rest, hsegments.symm⟩

/-- The segments that are left of a path in a base directory. -/
theorem IsBelow.exists_rest {p base : Anchored} (h : p.IsBelow base) :
    ∃ rest, p.segments = base.segments ++ rest ∧ p.below? base = some rest := by
  obtain ⟨hroot, rest, hrest⟩ := h
  exact ⟨rest, hrest.symm, below?_eq_some_iff.2 ⟨hroot, hrest.symm⟩⟩

/-- Segments that are read back are what is left of them as a relative path. -/
theorem Proper.filter_pieces {segments : List (List Char)} (h : Proper ⟨.relative, segments⟩) :
    (pieces ⟨.relative, segments⟩).filter isMeaningful = segments := by
  cases segments with
  | nil => rfl
  | cons first rest => exact h.filter_segments

end Anchored

namespace RepoPath

open Anchored

/-- A text that has a root of its own. -/
def IsAbsolute (text : String) : Prop := StartsAtRoot text.toList

/-- What a text names lies in the base directory. -/
def IsUnder (text base : String) : Prop := (ofChars text.toList).IsBelow (ofChars base.toList)

/-- Two paths that are the same, but perhaps for the case of the letter of their drive. -/
def SameButDriveCase (p q : RepoPath) : Prop :=
  p = q ∨ ∃ c d : Char, ∃ rest : List Char, c.toLower = d.toLower ∧
    p.text.toList = c :: ':' :: '/' :: rest ∧ q.text.toList = d :: ':' :: '/' :: rest

theorem isAbsolute_iff {text : String} :
    IsAbsolute text ↔ (ofChars text.toList).root ≠ .relative := startsAtRoot_iff

instance (text : String) : Decidable (IsAbsolute text) := decidable_of_iff' _ isAbsolute_iff

instance (text base : String) : Decidable (IsUnder text base) :=
  inferInstanceAs (Decidable (_ ∧ _))

theorem toList_new (text : String) : (new text).text.toList = (ofChars text.toList).toChars :=
  String.toList_ofList

/-- Two paths with the same segments, on one drive or both at the root directory. -/
theorem sameButDriveCase_of_same {p q : RepoPath} {r r' : Root} {segments : List (List Char)}
    (hroot : r.same r' = true) (hp : p.text.toList = toChars ⟨r, segments⟩)
    (hq : q.text.toList = toChars ⟨r', segments⟩) : SameButDriveCase p q := by
  cases r with
  | relative => cases hroot
  | slash =>
    cases r' with
    | relative => cases hroot
    | slash => exact .inl (eq_of_toList_eq (hp.trans hq.symm))
    | drive d => cases hroot
  | drive c =>
    cases r' with
    | relative => cases hroot
    | slash => cases hroot
    | drive d => exact .inr ⟨c, d, ['/'].intercalate segments, beq_iff_eq.1 hroot, hp, hq⟩

section

variable {base text : String}

theorem toList_behind (base text : String) :
    (base ++ "/" ++ text).toList = base.toList ++ '/' :: text.toList := by
  rw [String.toList_append, String.toList_append, List.append_assoc]
  rfl

theorem normalize_of_not_isUnder (h : ¬IsUnder text base) : normalize text base = new text := by
  apply eq_of_toList_eq
  rw [toList_normalize, toList_new, seenFrom, below?_eq_none_iff.2 h]

/-- A path without a root of its own is found again behind an absolute base directory. -/
theorem normalize_behind (hbase : IsAbsolute base) (htext : ¬IsAbsolute text) :
    normalize (base ++ "/" ++ text) base = new text := by
  rw [isAbsolute_iff] at hbase
  rw [isAbsolute_iff, not_not] at htext
  have hread := ofChars_behind hbase text.toList
  have hbelow : below? (ofChars (base.toList ++ '/' :: text.toList)) (ofChars base.toList) =
      some ((text.toList.splitOnP isSeparator).filter isMeaningful) := by
    rw [hread]
    exact below?_eq_some_iff.2 ⟨Root.same_self hbase, rfl⟩
  apply eq_of_toList_eq
  rw [toList_normalize, toList_behind, toList_new, seenFrom, hbelow, ofChars_of_relative htext]

/-- The segments that are left of a path in a base directory, as the text that it is known by. -/
theorem exists_rest_of_isUnder (h : IsUnder text base) :
    ∃ rest, (ofChars text.toList).segments = (ofChars base.toList).segments ++ rest ∧
      (normalize text base).text.toList = relativeText rest ∧ Proper ⟨.relative, rest⟩ := by
  obtain ⟨rest, hsegments, hbelow⟩ := IsBelow.exists_rest h
  have hproper := (proper_ofChars text.toList).seenFrom (ofChars base.toList)
  have hchars := toList_normalize text base
  rw [seenFrom, hbelow] at hproper hchars
  exact ⟨rest, hsegments, hchars, hproper⟩

theorem head?_relativeText {rest : List (List Char)} (h : Proper ⟨.relative, rest⟩) :
    (relativeText rest).head? ≠ some '/' := by
  intro hhead
  obtain ⟨tail, htail⟩ := List.head?_eq_some_iff.1 hhead
  have hpieces := h.splitOnP_toChars
  rw [show toChars ⟨.relative, rest⟩ = _ from htail, splitOnP_cons_separator rfl] at hpieces
  cases rest with
  | nil => cases hpieces
  | cons first others =>
    exact ne_nil_of_isMeaningful (h.meaningful first List.mem_cons_self)
      (List.cons.inj hpieces).1.symm

/-- What is seen from the base directory names the same place behind it. -/
theorem sameButDriveCase_reanchored (hbase : IsAbsolute base) (h : IsUnder text base) :
    SameButDriveCase (new text) (new (base ++ "/" ++ (normalize text base).text)) := by
  obtain ⟨rest, hsegments, hchars, hproper⟩ := exists_rest_of_isUnder h
  rw [isAbsolute_iff] at hbase
  have hpieces : (relativeText rest).splitOnP isSeparator = pieces ⟨.relative, rest⟩ :=
    hproper.splitOnP_toChars
  have hagain : ofChars (base.toList ++ '/' :: relativeText rest) =
      ⟨(ofChars base.toList).root, (ofChars text.toList).segments⟩ := by
    rw [ofChars_behind hbase, hpieces, hproper.filter_pieces, ← hsegments]
  have hnew := toList_new (base ++ "/" ++ (normalize text base).text)
  rw [toList_behind, hchars, hagain] at hnew
  exact sameButDriveCase_of_same h.1 (toList_new text) hnew

/-- Two paths in a base directory that are seen as one are the same. -/
theorem sameButDriveCase_of_normalize_eq {text' : String} (h : IsUnder text base)
    (h' : IsUnder text' base) (heq : normalize text base = normalize text' base) :
    SameButDriveCase (new text) (new text') := by
  obtain ⟨rest, hsegments, hchars, hproper⟩ := exists_rest_of_isUnder h
  obtain ⟨rest', hsegments', hchars', hproper'⟩ := exists_rest_of_isUnder h'
  have hrest : rest = rest' := by
    refine segments_eq_of_relativeText_eq hproper hproper' ?_
    rw [← hchars, ← hchars', heq]
  have hread : ofChars text'.toList =
      ⟨(ofChars text'.toList).root, (ofChars text.toList).segments⟩ := by
    rw [hsegments, hrest, ← hsegments']
  have hchars'' := toList_new text'
  rw [hread] at hchars''
  exact sameButDriveCase_of_same (Root.same_of_same h.1 h'.1) (toList_new text) hchars''

/-- A name that goes on where the last name of the base directory ends is another name. -/
theorem not_isUnder_sibling {front rest : List (List Char)} {last more : List Char}
    (hmore : more ≠ []) (hbase : (ofChars base.toList).segments = front ++ [last])
    (htext : (ofChars text.toList).segments = front ++ (last ++ more) :: rest) :
    ¬IsUnder text base := by
  rintro ⟨-, hprefix⟩
  rw [hbase, htext, List.prefix_append_right_inj, List.cons_prefix_cons] at hprefix
  exact hmore (List.self_eq_append_right.1 hprefix.1)

/-- Normalizing and putting behind an absolute base directory undo each other.

A path without a root of its own is found again behind the base directory.  A path in the base
directory is seen as one that starts with no slash and that names the same place behind it, so two
of them are seen as one only if they are the same; and any other path keeps its text, among them the
neighbours of the base directory whose names begin with its name. -/
theorem normalize_reanchored {base : String} (hbase : IsAbsolute base) :
    (∀ text, ¬IsAbsolute text → normalize (base ++ "/" ++ text) base = new text) ∧
    (∀ text, IsAbsolute text → IsUnder text base →
      (normalize text base).text.toList.head? ≠ some '/' ∧
      SameButDriveCase (new text) (new (base ++ "/" ++ (normalize text base).text))) ∧
    (∀ text, IsAbsolute text → ¬IsUnder text base → normalize text base = new text) ∧
    (∀ text text', IsUnder text base → IsUnder text' base →
      normalize text base = normalize text' base → SameButDriveCase (new text) (new text')) ∧
    (∀ text front last more rest, more ≠ [] →
      (ofChars base.toList).segments = front ++ [last] →
      (ofChars text.toList).segments = front ++ (last ++ more) :: rest →
      normalize text base = new text) := by
  refine ⟨fun text htext => normalize_behind hbase htext, ?under,
    fun text _ hunder => normalize_of_not_isUnder hunder,
    fun text text' h h' heq => sameButDriveCase_of_normalize_eq h h' heq, ?sibling⟩
  case under =>
    intro text _ hunder
    obtain ⟨rest, -, hchars, hproper⟩ := exists_rest_of_isUnder hunder
    refine ⟨?_, sameButDriveCase_reanchored hbase hunder⟩
    rw [hchars]
    exact head?_relativeText hproper
  case sibling =>
    intro text front last more rest hmore hsegments htext
    exact normalize_of_not_isUnder (not_isUnder_sibling hmore hsegments htext)

/-- A base directory on a drive, spelled with both separators and a segment that says nothing: a
name in it that looks like a drive, a path on the drive in the other case, one on another drive, and
a neighbour. -/
theorem normalize_reanchored_drive :
    let base := "c:\\work/."
    IsAbsolute base ∧
      (¬IsAbsolute ".\\C:/x" ∧ normalize (base ++ "/" ++ ".\\C:/x") base = ⟨"C:/x"⟩) ∧
      (IsUnder "C:/work//a" base ∧ normalize "C:/work//a" base = ⟨"a"⟩ ∧
        SameButDriveCase ⟨"C:/work/a"⟩ ⟨"c:/work/a"⟩) ∧
      (¬IsUnder "/work/a" base ∧ normalize "/work/a" base = ⟨"/work/a"⟩) ∧
      normalize "c:/work-other/a" base = ⟨"c:/work-other/a"⟩ := by
  intro base
  have hbase : IsAbsolute base := by decide +kernel
  obtain ⟨hbehind, hunder, hother, -, hsibling⟩ := normalize_reanchored hbase
  refine ⟨hbase, ⟨by decide +kernel, ?_⟩, ⟨by decide +kernel, by decide +kernel, ?_⟩,
    ⟨by decide +kernel, ?_⟩, ?_⟩
  · rw [hbehind ".\\C:/x" (by decide +kernel)]
    decide +kernel
  · have hsame := (hunder "C:/work//a" (by decide +kernel) (by decide +kernel)).2
    have hnew : new "C:/work//a" = ⟨"C:/work/a"⟩ ∧
        new (base ++ "/" ++ (normalize "C:/work//a" base).text) = ⟨"c:/work/a"⟩ := by
      decide +kernel
    rwa [hnew.1, hnew.2] at hsame
  · rw [hother "/work/a" (by decide +kernel) (by decide +kernel)]
    decide +kernel
  · rw [hsibling "c:/work-other/a" [] "work".toList "-other".toList ["a".toList]
      (by decide +kernel) (by decide +kernel) (by decide +kernel)]
    decide +kernel

end

end RepoPath

end ParseAudit
