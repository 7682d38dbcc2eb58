import ParseAudit.Scan
import ParseAudit.Proofs.Line.Cuts
/-!
# Attribution of lines

A line belongs to the checked file that the longest of its cuts names.

* `attribution_eq_some_iff`, `attribution_eq_none_iff`: the search finds that cut, or there is none;
* `Attributed.unique`: there is at most one;
* `attribution_eq_of_le`: files that a line does not belong to need not be looked for.
-/

namespace ParseAudit.Scan

open Chars Line

/-- The file that the start of a line names, seen from a base directory. -/
def fileOf (base : String) (before : List Char) : RepoPath :=
  .normalize (String.ofList (trimEnd before)) base

/-- The longest cut of a text that names one of the given files. -/
structure Attributed (files : RepoPath → Prop) (base : String) (text before after : List Char) :
    Prop where
  cut : IsCut text before after
  mem : files (fileOf base before)
  longest : ∀ before' after', IsCut text before' after' → before.length < before'.length →
    ¬files (fileOf base before')

/-- Only one cut is the longest. -/
theorem Attributed.unique {files : RepoPath → Prop} {base : String}
    {text before after before' after' : List Char} (h : Attributed files base text before after)
    (h' : Attributed files base text before' after') : before = before' ∧ after = after' := by
  refine h.cut.eq_of_length_eq h'.cut ?_
  rcases Nat.lt_trichotomy before.length before'.length with hlt | heq | hgt
  · exact absurd h'.mem (h.longest before' after' h'.cut hlt)
  · exact heq
  · exact absurd h.mem (h'.longest before after h.cut hgt)

/-- Only which files there are matters. -/
theorem attributed_congr {files files' : RepoPath → Prop} {base : String}
    {text before after : List Char} (h : ∀ p, files p ↔ files' p) :
    Attributed files base text before after ↔ Attributed files' base text before after := by
  have heq : files = files' := funext fun p => propext (h p)
  rw [heq]

/-- If some cut names one of the files, the search comes upon one. -/
theorem exists_find_of_cut {isTarget : RepoPath → Bool} {base : String}
    {line before after : List Char} (hcut : IsCut (trim line) before after)
    (hmem : isTarget (fileOf base before) = true) :
    ∃ cut, (cuts line).find? (fun cut => isTarget (fileOf base cut.passed.reverse)) = some cut := by
  apply Option.isSome_iff_exists.1
  rw [List.find?_isSome]
  refine ⟨⟨before.reverse, after⟩, mem_cuts_iff.2 ?_, ?_⟩
  · simpa using hcut
  · simpa using hmem

/-- The first cut in the list that names one of the files is the longest one that does. -/
theorem attributed_of_find? {isTarget : RepoPath → Bool} {base : String} {line : List Char}
    {cut : Cut}
    (h : (cuts line).find? (fun cut => isTarget (fileOf base cut.passed.reverse)) = some cut) :
    Attributed (isTarget · = true) base (trim line) cut.passed.reverse cut.after := by
  obtain ⟨hmem, earlier, later, hlist, hearlier⟩ := List.find?_eq_some_iff_append.1 h
  have hcut : cut ∈ cuts line := by simp [hlist]
  refine ⟨mem_cuts_iff.1 hcut, hmem, ?_⟩
  intro before' after' hcut' hlt
  have hother : (⟨before'.reverse, after'⟩ : Cut) ∈ cuts line :=
    mem_cuts_iff.2 (by simpa using hcut')
  have hsorted := pairwise_cuts line
  rw [hlist] at hother hsorted
  rcases List.mem_append.1 hother with hfront | hback
  · have hno := hearlier _ hfront
    simpa using hno
  · rcases List.mem_cons.1 hback with rfl | hback
    · simp at hlt
    · -- Cuts that come later in the list are shorter.
      have hshort := (List.pairwise_cons.1 (List.pairwise_append.1 hsorted).2.1).1 _ hback
      simp only [List.length_reverse] at hlt hshort
      omega

/-- If some cut names one of the files, there is a longest one that does. -/
theorem exists_attributed {isTarget : RepoPath → Bool} {base : String}
    {line before after : List Char} (hcut : IsCut (trim line) before after)
    (hmem : isTarget (fileOf base before) = true) :
    ∃ before after, Attributed (isTarget · = true) base (trim line) before after := by
  obtain ⟨cut, hfind⟩ := exists_find_of_cut hcut hmem
  exact ⟨cut.passed.reverse, cut.after, attributed_of_find? hfind⟩

theorem attribution_def (isTarget : RepoPath → Bool) (base : String) (line : List Char) :
    attribution isTarget base line =
      ((cuts line).find? fun cut => isTarget (fileOf base cut.passed.reverse)).map
        fun cut => (cut.path, cut.rest) := rfl

/-- A line is attributed by the longest cut that names one of the files. -/
theorem attribution_eq_some_iff {isTarget : RepoPath → Bool} {base : String}
    {line path rest : List Char} :
    attribution isTarget base line = some (path, rest) ↔
      ∃ before after, Attributed (isTarget · = true) base (trim line) before after ∧
        path = trimEnd before ∧ rest = trim after := by
  rw [attribution_def, Option.map_eq_some_iff]
  constructor
  · rintro ⟨cut, hfind, hparts⟩
    simp only [Prod.mk.injEq] at hparts
    obtain ⟨rfl, rfl⟩ := hparts
    exact ⟨cut.passed.reverse, cut.after, attributed_of_find? hfind, rfl, rfl⟩
  · rintro ⟨before, after, hatt, rfl, rfl⟩
    obtain ⟨cut, hfind⟩ := exists_find_of_cut hatt.cut hatt.mem
    obtain ⟨hbefore, hafter⟩ := (attributed_of_find? hfind).unique hatt
    refine ⟨cut, hfind, ?_⟩
    rw [Cut.path, Cut.rest, hbefore, hafter]

/-- A line is attributed to no file exactly when none of its cuts names one. -/
theorem attribution_eq_none_iff {isTarget : RepoPath → Bool} {base : String} {line : List Char} :
    attribution isTarget base line = none ↔
      ∀ before after, IsCut (trim line) before after → isTarget (fileOf base before) = false := by
  rw [attribution_def, Option.map_eq_none_iff]
  constructor
  · intro h before after hcut
    by_contra hmem
    obtain ⟨cut, hfind⟩ := exists_find_of_cut hcut (by simpa using hmem)
    rw [h] at hfind
    cases hfind
  · intro h
    rw [List.find?_eq_none]
    intro cut hcut
    rw [h _ _ (mem_cuts_iff.1 hcut)]
    exact Bool.false_ne_true

/-- If a line that names any of many files belongs to one of a few, then looking for these few
attributes it in the same way. -/
theorem attribution_eq_of_le {few many : RepoPath → Bool} {base : String} {line : List Char}
    (hle : ∀ p, few p = true → many p = true)
    (hown : ∀ before after, Attributed (many · = true) base (trim line) before after →
      few (fileOf base before) = true) :
    attribution few base line = attribution many base line := by
  cases hmany : attribution many base line with
  | none =>
    rw [attribution_eq_none_iff] at hmany ⊢
    intro before after hcut
    by_contra hfew
    have hno := hmany before after hcut
    rw [hle _ (by simpa using hfew)] at hno
    cases hno
  | some parts =>
    obtain ⟨path, rest⟩ := parts
    obtain ⟨before, after, hatt, rfl, rfl⟩ := attribution_eq_some_iff.1 hmany
    refine attribution_eq_some_iff.2 ⟨before, after, ?_, rfl, rfl⟩
    exact {
      cut := hatt.cut
      mem := hown before after hatt
      longest := fun before' after' hcut' hlt hfew =>
        hatt.longest before' after' hcut' hlt (hle _ hfew) }

end ParseAudit.Scan
