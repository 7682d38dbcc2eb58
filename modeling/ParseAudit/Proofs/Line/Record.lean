import ParseAudit.Proofs.Line.ErrorNode
/-!
# Records of single lines

What a line is read as depends on its first token and on the trimmed rest behind it only.

* `recordOfParts_eq_ok_iff`: the record of a line that is cut already;
* `recordFrom_grammar`: blank lines, clean lines and lines with an error node, each by its form.
-/

namespace ParseAudit.Line

open Chars

theorem isBlank_of_isGap {c : Char} (h : isGap c = true) : isBlank c = true := by
  simp only [isGap, Bool.or_eq_true, beq_iff_eq] at h
  rcases h with rfl | rfl
  · decide
  · decide

/-- What a rest says of its file: nothing, or an error node. -/
def Says (rest : List Char) : Option Region → Prop
  | none => rest.getLast? ≠ some ')'
  | some region => IsErrorNode rest region

theorem regionOf_eq_ok_iff {rest : List Char} {region : Option Region} :
    regionOf rest = .ok region ↔ Says rest region := by
  cases region with
  | some region => exact regionOf_eq_some_iff
  | none =>
    constructor
    · intro h hlast
      unfold regionOf at h
      rw [if_pos hlast] at h
      cases hnode : errorNode rest with
      | error e => rw [hnode] at h; cases h
      | ok r => rw [hnode] at h; cases h
    · exact regionOf_eq_none

/-- What is wrong with a rest is what is wrong with its error node. -/
theorem regionOf_eq_error_iff {rest : List Char} {cause : LineError} :
    regionOf rest = .error cause ↔ rest.getLast? = some ')' ∧ errorNode rest = .error cause := by
  unfold regionOf
  by_cases hlast : rest.getLast? = some ')'
  · rw [if_pos hlast]
    cases errorNode rest with
    | error e => simp [Functor.map, Except.map, hlast]
    | ok r => simp [Functor.map, Except.map]
  · rw [if_neg hlast]
    simp [hlast]

/-- A line that is cut into a path and a rest is read by what the rest says. -/
theorem recordOfParts_eq_ok_iff {path rest raw : List Char} {base : String} {r : Record}
    (hpath : path ≠ []) :
    recordOfParts path rest raw base = .ok r ↔
      ∃ region, Says rest region ∧
        r = ⟨.normalize (String.ofList path) base, region, String.ofList raw⟩ := by
  have hempty : path.isEmpty = false := List.isEmpty_eq_false_iff.2 hpath
  unfold recordOfParts
  rw [hempty]
  constructor
  · intro h
    cases hregion : regionOf rest with
    | error e => rw [hregion] at h; cases h
    | ok region =>
      rw [hregion] at h
      cases h
      exact ⟨region, regionOf_eq_ok_iff.1 hregion, rfl⟩
  · rintro ⟨region, hregion, rfl⟩
    rw [regionOf_eq_ok_iff.2 hregion]
    rfl

/-- It cannot be read if its rest cannot. -/
theorem recordOfParts_eq_error_iff {path rest raw : List Char} {base : String} {cause : LineError}
    (hpath : path ≠ []) :
    recordOfParts path rest raw base = .error cause ↔ regionOf rest = .error cause := by
  have hempty : path.isEmpty = false := List.isEmpty_eq_false_iff.2 hpath
  unfold recordOfParts
  rw [hempty, if_neg Bool.false_ne_true]
  cases regionOf rest with
  | error e => simp [bind, Except.bind]
  | ok region => exact iff_of_false nofun nofun

/-- The first token of a trimmed line is not empty. -/
theorem firstToken_ne_nil {text : List Char} (htrim : Trimmed text) (hne : text ≠ []) :
    text.takeWhile (!isGap ·) ≠ [] := by
  cases text with
  | nil => exact absurd rfl hne
  | cons c cs =>
    have hblank := htrim.head c rfl
    have hgap : isGap c = false := by
      by_contra hc
      rw [isBlank_of_isGap (by simpa using hc)] at hblank
      cases hblank
    simp [hgap]

theorem recordFrom_eq_error_empty {line : List Char} {base : String} (h : trim line = []) :
    recordFrom line base = .error .empty := by
  unfold recordFrom
  rw [h]
  rfl

/-- A line that is not blank is read by its first token and the trimmed rest behind it. -/
theorem recordFrom_of_ne_nil {line : List Char} (base : String) (h : trim line ≠ []) :
    recordFrom line base = recordOfParts ((trim line).takeWhile (!isGap ·))
      (trim ((trim line).dropWhile (!isGap ·))) (trim line) base := by
  have hempty : (trim line).isEmpty = false := List.isEmpty_eq_false_iff.2 h
  unfold recordFrom splitToken
  dsimp only
  rw [hempty, trim_trim]
  exact if_neg Bool.false_ne_true

/-- A line that is not blank is read by its first token and by what the rest says. -/
theorem recordFrom_eq_ok_iff {line : List Char} {base : String} {r : Record}
    (h : trim line ≠ []) :
    recordFrom line base = .ok r ↔
      ∃ region, Says (trim ((trim line).dropWhile (!isGap ·))) region ∧
        r = ⟨.normalize (String.ofList ((trim line).takeWhile (!isGap ·))) base, region,
          String.ofList (trim line)⟩ := by
  rw [← recordOfParts_eq_ok_iff (firstToken_ne_nil (trimmed_trim line) h),
    recordFrom_of_ne_nil base h]

/-- Lines are accepted exactly by their grammar.  A blank line is refused as empty.  With the first
token and the trimmed rest behind it, a line whose rest does not end in `)` says that its file is
clean; any other line is read exactly when its rest can be put together from the parts of an error
node, in one way as far as the region goes, and is never taken for a clean one. -/
theorem recordFrom_grammar (line : List Char) (base : String) :
    let text := trim line
    let rest := trim (text.dropWhile (!isGap ·))
    let file := RepoPath.normalize (String.ofList (text.takeWhile (!isGap ·))) base
    (text = [] → recordFrom line base = .error .empty) ∧
    (text ≠ [] → rest.getLast? ≠ some ')' →
      recordFrom line base = .ok ⟨file, none, String.ofList text⟩) ∧
    (text ≠ [] → rest.getLast? = some ')' →
      (∀ r, recordFrom line base = .ok r ↔
        ∃ region, IsErrorNode rest region ∧ r = ⟨file, some region, String.ofList text⟩) ∧
      ((∃ e, recordFrom line base = .error e) ↔ ¬∃ region, IsErrorNode rest region) ∧
      (∀ region region', IsErrorNode rest region → IsErrorNode rest region' → region = region') ∧
      ∀ r, recordFrom line base = .ok r → r.hasError = true) := by
  intro text rest file
  refine ⟨recordFrom_eq_error_empty, ?_, ?_⟩
  · intro hne hlast
    exact (recordFrom_eq_ok_iff hne).2 ⟨none, hlast, rfl⟩
  · intro hne hlast
    have hiff : ∀ r, recordFrom line base = .ok r ↔
        ∃ region, IsErrorNode rest region ∧ r = ⟨file, some region, String.ofList text⟩ := by
      intro r
      rw [recordFrom_eq_ok_iff hne]
      constructor
      · rintro ⟨region, hsaid, rfl⟩
        cases region with
        | none => exact absurd hlast hsaid
        | some region => exact ⟨region, hsaid, rfl⟩
      · rintro ⟨region, hnode, rfl⟩
        exact ⟨some region, hnode, rfl⟩
    refine ⟨hiff, ?_, fun region region' => IsErrorNode.unique, ?_⟩
    · cases hresult : recordFrom line base with
      | error e =>
        refine ⟨fun _ => ?_, fun _ => ⟨e, rfl⟩⟩
        rintro ⟨region, hnode⟩
        have hok := (hiff _).2 ⟨region, hnode, rfl⟩
        rw [hresult] at hok
        cases hok
      | ok r =>
        constructor
        · rintro ⟨e, he⟩
          cases he
        · intro hnone
          obtain ⟨region, hnode, -⟩ := (hiff r).1 hresult
          exact absurd ⟨region, hnode⟩ hnone
    · intro r hr
      obtain ⟨region, -, rfl⟩ := (hiff r).1 hr
      rfl

end ParseAudit.Line
