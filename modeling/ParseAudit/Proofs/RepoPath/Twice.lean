import ParseAudit.Proofs.RepoPath.Pieces
/-!
# Normalizing twice

What was normalized may be normalized again, and nearly always nothing happens.  It is a relative
path in front of which a segment such as `C:` comes to stand that is *misread*: its text names a
drive, which the path never did.

* `isMisread_drive_iff`: which paths that look like a drive in front are misread;
* `normalize_normalize_iff`: normalizing twice is normalizing once for all others, and only for
  them;
* `normalize_misread`: a file named `C:` beneath the base directory.
-/

namespace ParseAudit

open Chars (of_mem_splitOnP)

namespace Anchored

/-- A path as it is seen from a base directory: relative if it lies in it. -/
def seenFrom (p base : Anchored) : Anchored :=
  match p.below? base with
  | some segments => ⟨.relative, segments⟩
  | none => p

theorem toChars_seenFrom (p base : Anchored) : (p.seenFrom base).toChars = p.relativeTo base := by
  unfold seenFrom relativeTo
  cases p.below? base with
  | none => rfl
  | some segments => rfl

/-- A relative path lies in no base directory. -/
theorem below?_relative (segments : List (List Char)) (base : Anchored) :
    below? ⟨.relative, segments⟩ base = none := rfl

theorem below?_eq_some_iff {p base : Anchored} {rest : List (List Char)} :
    p.below? base = some rest ↔
      p.root.same base.root = true ∧ p.segments = base.segments ++ rest := by
  unfold below?
  constructor
  · intro h
    split at h
    · next hin =>
      rw [Bool.and_eq_true, List.isPrefixOf_iff_prefix] at hin
      obtain ⟨hroot, more, hmore⟩ := hin
      rw [Option.some.injEq, ← hmore, List.drop_left] at h
      rw [← hmore, h]
      exact ⟨hroot, rfl⟩
    · cases h
  · rintro ⟨hroot, hsegments⟩
    have hprefix : base.segments.isPrefixOf p.segments = true := by
      rw [List.isPrefixOf_iff_prefix, hsegments]
      exact List.prefix_append _ _
    rw [hroot, hprefix, hsegments, List.drop_left]
    rfl

theorem below?_eq_some {p base : Anchored} {segments : List (List Char)}
    (h : p.below? base = some segments) : segments = p.segments.drop base.segments.length := by
  rw [(below?_eq_some_iff.1 h).2, List.drop_left]

/-- From a base directory a path is seen as one that does not lie in it. -/
theorem below?_seenFrom (p base : Anchored) : (p.seenFrom base).below? base = none := by
  unfold seenFrom
  cases h : p.below? base with
  | none => exact h
  | some segments => exact below?_relative segments base

theorem Proper.seenFrom {p : Anchored} (hp : p.Proper) (base : Anchored) :
    (p.seenFrom base).Proper := by
  unfold Anchored.seenFrom
  cases h : p.below? base with
  | none => exact hp
  | some segments =>
    have hsub : segments ⊆ p.segments := by
      rw [below?_eq_some h]
      exact List.drop_subset _ _
    exact proper_relative (fun s hs => hp.meaningful s (hsub hs))
      fun s hs => hp.separator s (hsub hs)

/-- Two relative paths with one text have the same segments. -/
theorem segments_eq_of_relativeText_eq {a b : List (List Char)}
    (ha : Proper ⟨.relative, a⟩) (hb : Proper ⟨.relative, b⟩)
    (h : relativeText a = relativeText b) : a = b := by
  have hpieces : pieces ⟨.relative, a⟩ = pieces ⟨.relative, b⟩ := by
    rw [← ha.splitOnP_toChars, ← hb.splitOnP_toChars]
    exact congrArg _ h
  have hdot : ∀ {s : List (List Char)}, Proper ⟨.relative, s⟩ → [['.']] ≠ s := by
    rintro s hs rfl
    have hmeaningful := hs.meaningful ['.'] List.mem_cons_self
    cases hmeaningful
  cases a with
  | nil =>
    cases b with
    | nil => rfl
    | cons s ss => exact absurd hpieces (hdot hb)
  | cons s ss =>
    cases b with
    | nil => exact absurd hpieces.symm (hdot ha)
    | cons t ts => exact hpieces

/-- The characters of a text that is read and written again are its own, but for those that are put
between its segments. -/
theorem mem_of_toChars_seenFrom {s : List Char} {base : Anchored} {c : Char}
    (h : c ∈ ((ofChars s).seenFrom base).toChars) : c ∈ ['/', '.', ':'] ∨ c ∈ s := by
  obtain ⟨hsegments, hroot⟩ := mem_of_ofPieces (s.splitOnP isSeparator)
  rw [← ofChars_eq_ofPieces] at hsegments hroot
  have hpiece : ∀ piece ∈ (ofChars s).segments, c ∈ piece → c ∈ s :=
    fun piece hpiece hc => (of_mem_splitOnP (hsegments hpiece) hc).1
  have hseen : ((ofChars s).seenFrom base).segments ⊆ (ofChars s).segments ∧
      ∀ d, ((ofChars s).seenFrom base).root = .drive d → (ofChars s).root = .drive d := by
    unfold seenFrom
    cases hbelow : (ofChars s).below? base with
    | none => exact ⟨List.Subset.refl _, fun _ hd => hd⟩
    | some segments => exact ⟨below?_eq_some hbelow ▸ List.drop_subset _ _, nofun⟩
  rcases mem_toChars h with hput | ⟨piece, hmem, hc⟩ | hdrive
  · exact .inl hput
  · exact .inr (hpiece piece (hseen.1 hmem) hc)
  · exact .inr (of_mem_splitOnP (hroot c (hseen.2 c hdrive)) List.mem_cons_self).1

end Anchored

namespace RepoPath

open Anchored

/-- The text of a path is read as something else: it is the name of a drive and nothing more, or
what it is read as lies in the base directory. -/
def IsMisread (path : RepoPath) (base : String) : Prop :=
  (driveLetter? path.text.toList).isSome ∨
    ((ofChars path.text.toList).below? (ofChars base.toList)).isSome

instance (path : RepoPath) (base : String) : Decidable (path.IsMisread base) :=
  inferInstanceAs (Decidable (_ ∨ _))

/-- A path is its text. -/
theorem eq_of_toList_eq {p q : RepoPath} (h : p.text.toList = q.text.toList) : p = q := by
  cases p
  cases q
  exact congrArg RepoPath.mk (String.toList_inj.1 h)

theorem toList_normalize (text base : String) :
    (normalize text base).text.toList =
      ((ofChars text.toList).seenFrom (ofChars base.toList)).toChars := by
  rw [toChars_seenFrom]
  exact String.toList_ofList

/-- Normalizing a text adds no characters to it but those that stand between segments. -/
theorem mem_toList_normalize {text base : String} {c : Char}
    (h : c ∈ (normalize text base).text.toList) : c ∈ ['/', '.', ':'] ∨ c ∈ text.toList := by
  rw [toList_normalize] at h
  exact mem_of_toChars_seenFrom h

/-- A text that is normalized has slashes of one kind. -/
theorem not_mem_normalize {text base : String} : '\\' ∉ (normalize text base).text.toList := by
  rw [toList_normalize]
  exact ((proper_ofChars text.toList).seenFrom (ofChars base.toList)).backslash_not_mem_toChars

/-- A path that is read back from its text, and lies in no base directory, is not misread. -/
theorem not_isMisread {path : RepoPath} {base : String} {p : Anchored}
    (htext : path.text.toList = p.toChars) (hread : ofChars p.toChars = p)
    (hbelow : p.below? (ofChars base.toList) = none) : ¬path.IsMisread base := by
  unfold IsMisread
  rw [htext, hread, hbelow]
  rintro (hdrive | hin)
  · -- A drive and nothing more would be read with the slash that its text does not have.
    obtain ⟨c, hc⟩ := Option.isSome_iff_exists.1 hdrive
    obtain ⟨halpha, hchars⟩ := driveLetter?_eq_some_iff.1 hc
    have hdriveRoot : p = ⟨.drive c, []⟩ := by
      rw [← hread, hchars, ofChars_eq_ofPieces, List.splitOnP_eq_singleton]
      · exact ofPieces_drive halpha []
      · intro d hd
        rcases List.mem_cons.1 hd with rfl | hd
        · exact isSeparator_of_isAlpha halpha
        · rw [List.mem_singleton.1 hd]
          decide
    rw [hdriveRoot] at hchars
    cases hchars
  · cases hin

/-- A relative path behind what looks like a drive is misread if it is nothing more, or if it would
lie in the base directory on that drive. -/
theorem isMisread_drive_iff {path : RepoPath} {base : String} {c : Char}
    {rest : List (List Char)} (hc : c.isAlpha = true)
    (hp : Proper ⟨.relative, [c, ':'] :: rest⟩)
    (htext : path.text.toList = toChars ⟨.relative, [c, ':'] :: rest⟩) :
    path.IsMisread base ↔
      rest = [] ∨ (below? ⟨.drive c, rest⟩ (ofChars base.toList)).isSome := by
  unfold IsMisread
  rw [htext, ofChars_toChars_drive hc hp]
  refine or_congr_left ?_
  cases rest with
  | nil => simp [toChars, relativeText, driveLetter?, hc]
  | cons s ss => simp [toChars, relativeText, List.intercalate_cons_cons, driveLetter?]

/-- A path that looks like a drive in front is normalized to another one if it is misread. -/
theorem normalize_drive_eq_iff {path : RepoPath} {base : String} {c : Char}
    {rest : List (List Char)} (hc : c.isAlpha = true)
    (hp : Proper ⟨.relative, [c, ':'] :: rest⟩)
    (htext : path.text.toList = toChars ⟨.relative, [c, ':'] :: rest⟩) :
    normalize path.text base = path ↔
      ¬(rest = [] ∨ (below? ⟨.drive c, rest⟩ (ofChars base.toList)).isSome) := by
  have heq : normalize path.text base = path ↔
      (seenFrom ⟨.drive c, rest⟩ (ofChars base.toList)).toChars =
        toChars ⟨.relative, [c, ':'] :: rest⟩ := by
    rw [← ofChars_toChars_drive hc hp, ← htext, ← toList_normalize, String.toList_inj]
    constructor
    · exact fun h => congrArg RepoPath.text h
    · exact fun h => congrArg RepoPath.mk h
  rw [heq]
  unfold seenFrom
  cases hbelow : below? ⟨.drive c, rest⟩ (ofChars base.toList) with
  | none =>
    cases rest with
    | nil => simp [toChars, Root.text, relativeText]
    | cons s ss => simp [toChars, Root.text, relativeText, List.intercalate_cons_cons]
  | some segments =>
    -- What is left below the base has fewer segments than the path.
    have hdrop : segments = rest.drop (ofChars base.toList).segments.length :=
      below?_eq_some hbelow
    have hsub : ∀ s ∈ segments, s ∈ [c, ':'] :: rest := by
      intro s hs
      rw [hdrop] at hs
      exact List.mem_cons_of_mem _ (List.mem_of_mem_drop hs)
    have hproper : Proper ⟨.relative, segments⟩ :=
      proper_relative (fun s hs => hp.meaningful s (hsub s hs))
        fun s hs => hp.separator s (hsub s hs)
    simp only [Option.isSome_some, or_true, not_true, iff_false]
    intro hsame
    have hsegments : segments = [c, ':'] :: rest :=
      segments_eq_of_relativeText_eq hproper hp hsame
    have hlength := congrArg List.length (hdrop.symm.trans hsegments)
    rw [List.length_drop, List.length_cons] at hlength
    omega

/-- A path is read back from its text, or it looks like a drive in front. -/
theorem looksLikeDrive_or_readBack {p : Anchored} (hp : p.Proper) :
    (∃ c rest, c.isAlpha = true ∧ p = ⟨.relative, [c, ':'] :: rest⟩) ∨ ofChars p.toChars = p := by
  by_cases hdrive : ∃ c rest, c.isAlpha = true ∧ p = ⟨.relative, [c, ':'] :: rest⟩
  · exact .inl hdrive
  · exact .inr (ofChars_toChars_eq_self hp fun c rest hc heq => hdrive ⟨c, rest, hc, heq⟩)

/-- What was normalized stays as it is when it is normalized again, unless it is misread. -/
theorem normalize_again_iff (text base : String) :
    normalize (normalize text base).text base = normalize text base ↔
      ¬(normalize text base).IsMisread base := by
  have htext := toList_normalize text base
  have hproper := (proper_ofChars text.toList).seenFrom (ofChars base.toList)
  have hbelow := below?_seenFrom (ofChars text.toList) (ofChars base.toList)
  generalize (ofChars text.toList).seenFrom (ofChars base.toList) = p at htext hproper hbelow
  rcases looksLikeDrive_or_readBack hproper with ⟨c, rest, hc, rfl⟩ | hread
  · rw [normalize_drive_eq_iff hc hproper htext, isMisread_drive_iff hc hproper htext]
  · have hchars : (normalize (normalize text base).text base).text.toList =
        (normalize text base).text.toList := by
      rw [toList_normalize, htext, hread]
      unfold seenFrom
      rw [hbelow]
    exact iff_of_true (eq_of_toList_eq hchars)
      (not_isMisread htext hread hbelow)

/-- A path that is not misread has the text of what it is read as. -/
theorem toChars_ofChars_of_not_isMisread {path : RepoPath} {base : String}
    (hnormal : normalize path.text base = path) (h : ¬path.IsMisread base) :
    (ofChars path.text.toList).toChars = path.text.toList := by
  have hbelow : (ofChars path.text.toList).below? (ofChars base.toList) = none := by
    by_contra hsome
    exact h (.inr (Option.isSome_iff_ne_none.2 hsome))
  have htext := toList_normalize path.text base
  rw [hnormal] at htext
  unfold seenFrom at htext
  rw [hbelow] at htext
  exact htext.symm

/-- Normalizing twice is normalizing once, but for a path that is misread.  That happens to the
relative paths alone that have a segment in front such as `C:`, when it is the only one or when the
base directory lies on that drive and holds the rest. -/
theorem normalize_normalize_iff (text base : String) :
    let path := normalize text base
    (normalize path.text base = path ↔ ¬path.IsMisread base) ∧
      (path.IsMisread base ↔ ∃ c rest, c.isAlpha = true ∧
        (ofChars text.toList).seenFrom (ofChars base.toList) = ⟨.relative, [c, ':'] :: rest⟩ ∧
        (rest = [] ∨ (below? ⟨.drive c, rest⟩ (ofChars base.toList)).isSome)) := by
  intro path
  have htext : path.text.toList = _ := toList_normalize text base
  have hproper := (proper_ofChars text.toList).seenFrom (ofChars base.toList)
  have hbelow := below?_seenFrom (ofChars text.toList) (ofChars base.toList)
  refine ⟨normalize_again_iff text base, ?_⟩
  generalize (ofChars text.toList).seenFrom (ofChars base.toList) = p at htext hproper hbelow
  constructor
  · intro hmisread
    rcases looksLikeDrive_or_readBack hproper with ⟨c, rest, hc, rfl⟩ | hread
    · exact ⟨c, rest, hc, rfl, (isMisread_drive_iff hc hproper htext).1 hmisread⟩
    · exact absurd hmisread (not_isMisread htext hread hbelow)
  · rintro ⟨c, rest, hc, rfl, h⟩
    exact (isMisread_drive_iff hc hproper htext).2 h

/-- A file named `C:` beneath the base directory is normalized to its name, and its name to the root
of a drive.  On that drive a directory named `C:` vanishes as well. -/
theorem normalize_misread :
    normalize "/work/C:" "/work" = ⟨"C:"⟩ ∧ normalize "C:" "/work" = ⟨"C:/"⟩ ∧
      normalize (normalize "/work/C:" "/work").text "/work" ≠ normalize "/work/C:" "/work" ∧
      normalize (normalize "./C:/a" "c:\\").text "c:\\" = ⟨"a"⟩ := by
  decide +kernel

end RepoPath

end ParseAudit
