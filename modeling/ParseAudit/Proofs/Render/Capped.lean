import ParseAudit.Render.WorkflowCommand
import Mathlib.Data.List.Perm.Subperm
/-!
# Annotations under a cap

When not all findings may be shown, the heaviest are.  The findings are put in order by falling
weight, where those of one severity keep the order that they have in the report, and annotations are
made for as many of them as may be shown.

* `ByFallingWeight`: that order, and `byFallingWeight_iff`: sorting gives it, and there is just one
  such list;
* `gravestFirst_eq_filter`: the errors, then the warnings, then the notices;
* `cappedAnnotations_heaviest`: the annotations are those of its first findings, and a finding is
  left out only if nothing lighter is shown.
-/

namespace ParseAudit

namespace ReportView

open WorkflowCommand (line)

/-! ## No finding is lost -/

theorem gravestFirst_perm (findings : List FindingView) :
    (gravestFirst findings).Perm findings :=
  List.mergeSort_perm findings _

/-- The findings that annotations are made for. -/
def shownFindings (r : ReportView) (max : Nat) : List FindingView :=
  (gravestFirst r.findings).take max

theorem cappedAnnotations_eq_map (r : ReportView) (max : Nat) :
    r.cappedAnnotations max = (r.shownFindings max).map (line r.os) :=
  List.map_take.symm

theorem length_shownFindings (r : ReportView) (max : Nat) :
    (r.shownFindings max).length = min max r.findings.length := by
  rw [shownFindings, List.length_take, (gravestFirst_perm r.findings).length_eq]

theorem shownFindings_subperm (r : ReportView) (max : Nat) :
    (r.shownFindings max).Subperm r.findings :=
  (List.take_sublist max _).subperm.trans (gravestFirst_perm r.findings).subperm

/-! ## The order -/

/-- No finding stands in front of a heavier one. -/
def FallingWeight (findings : List FindingView) : Prop :=
  findings.Pairwise fun f g => g.severity.weight ≤ f.severity.weight

/-- The findings by falling weight, those of each severity in the order that they had. -/
structure ByFallingWeight (findings ordered : List FindingView) : Prop where
  falling : FallingWeight ordered
  stable : ∀ s, ordered.filter (·.severity == s) = findings.filter (·.severity == s)

/-- Findings of one severity are in order however they stand. -/
theorem fallingWeight_filter (s : Severity) (findings : List FindingView) :
    FallingWeight (findings.filter (·.severity == s)) := by
  have hsame : ∀ f ∈ findings.filter (·.severity == s), f.severity = s := by
    intro f hf
    exact beq_iff_eq.1 (List.mem_filter.1 hf).2
  refine List.pairwise_of_forall_mem_list fun f hf g hg => ?_
  have heq : g.severity = f.severity := (hsame g hg).trans (hsame f hf).symm
  exact Nat.le_of_eq (congrArg _ heq)

/-- Sorting puts the findings in that order. -/
theorem byFallingWeight_gravestFirst (findings : List FindingView) :
    ByFallingWeight findings (gravestFirst findings) := by
  have htrans : ∀ f g h : FindingView, decide (g.severity.weight ≤ f.severity.weight) = true →
      decide (h.severity.weight ≤ g.severity.weight) = true →
      decide (h.severity.weight ≤ f.severity.weight) = true := by
    intro f g h hfg hgh
    rw [decide_eq_true_eq] at hfg hgh ⊢
    exact Nat.le_trans hgh hfg
  have htotal : ∀ f g : FindingView, (decide (g.severity.weight ≤ f.severity.weight) ||
      decide (f.severity.weight ≤ g.severity.weight)) = true := by
    intro f g
    rw [Bool.or_eq_true, decide_eq_true_eq, decide_eq_true_eq]
    exact Nat.le_total _ _
  constructor
  case falling =>
    have hsorted := List.pairwise_mergeSort htrans htotal findings
    exact hsorted.imp of_decide_eq_true
  case stable =>
    intro s
    -- Findings of one severity are sorted, so sorting keeps them in their order.
    have hkept := List.sublist_mergeSort htrans htotal
      ((fallingWeight_filter s findings).imp decide_eq_true) List.filter_sublist
    have hsublist := hkept.filter (·.severity == s)
    rw [List.filter_filter] at hsublist
    simp only [Bool.and_self] at hsublist
    have hlength := ((gravestFirst_perm findings).filter (·.severity == s)).length_eq
    exact (hsublist.eq_of_length hlength.symm).symm

/-- Findings that are in order are errors, then warnings, then notices. -/
theorem FallingWeight.eq_filter {findings : List FindingView} (h : FallingWeight findings) :
    findings = findings.filter (·.severity == .error) ++ findings.filter (·.severity == .warning)
      ++ findings.filter (·.severity == .info) := by
  induction findings with
  | nil => rfl
  | cons f fs ih =>
    obtain ⟨hfirst, hrest⟩ := List.pairwise_cons.1 h
    have hfs := ih hrest
    -- None of the findings behind the first is heavier.
    have hnone : ∀ s : Severity, f.severity.weight < s.weight →
        fs.filter (·.severity == s) = [] := by
      intro s hs
      rw [List.filter_eq_nil_iff]
      intro g hg hsame
      have hle := hfirst g hg
      rw [beq_iff_eq.1 hsame] at hle
      omega
    cases hf : f.severity with
    | error =>
      simp only [List.filter_cons, hf]
      exact congrArg (f :: ·) hfs
    | warning =>
      have herror : fs.filter (·.severity == .error) = [] := hnone .error (by rw [hf]; decide)
      rw [herror] at hfs
      simp only [List.filter_cons, hf, herror]
      exact congrArg (f :: ·) hfs
    | info =>
      have herror : fs.filter (·.severity == .error) = [] := hnone .error (by rw [hf]; decide)
      have hwarning : fs.filter (·.severity == .warning) = [] :=
        hnone .warning (by rw [hf]; decide)
      rw [herror, hwarning] at hfs
      simp only [List.filter_cons, hf, herror, hwarning]
      exact congrArg (f :: ·) hfs

/-- Sorting takes out the errors, then the warnings, then the notices. -/
theorem gravestFirst_eq_filter (findings : List FindingView) :
    gravestFirst findings =
      findings.filter (·.severity == .error) ++ findings.filter (·.severity == .warning)
        ++ findings.filter (·.severity == .info) := by
  obtain ⟨hfalling, hstable⟩ := byFallingWeight_gravestFirst findings
  rw [← hstable, ← hstable, ← hstable]
  exact hfalling.eq_filter

/-- The order is settled by the report: there is one such list only. -/
theorem byFallingWeight_iff {findings ordered : List FindingView} :
    ByFallingWeight findings ordered ↔ ordered = gravestFirst findings := by
  constructor
  · rintro ⟨hfalling, hstable⟩
    rw [gravestFirst_eq_filter, ← hstable, ← hstable, ← hstable]
    exact hfalling.eq_filter
  · rintro rfl
    exact byFallingWeight_gravestFirst findings

/-! ## The annotations that are shown -/

/-- The annotations are those of the first findings by falling weight, as many as may be shown.
Findings of one severity keep their order; a finding is left out only if all that are shown weigh at
least as much; and where there is room for all of them, the annotations are those of the report but
for their order. -/
theorem cappedAnnotations_heaviest (r : ReportView) (max : Nat) :
    let ordered := r.findings.mergeSort fun f g => g.severity.weight ≤ f.severity.weight
    (∀ l, ByFallingWeight r.findings l ↔ l = ordered) ∧
      r.cappedAnnotations max = (ordered.map (line r.os)).take max ∧
      (r.cappedAnnotations max).length = min max r.findings.length ∧
      (∀ dropped ∈ ordered.drop max, ∀ kept ∈ ordered.take max,
        dropped.severity.weight ≤ kept.severity.weight) ∧
      (r.findings.length ≤ max → (r.cappedAnnotations max).Perm r.annotations) := by
  intro ordered
  have hordered : ByFallingWeight r.findings ordered := byFallingWeight_gravestFirst r.findings
  refine ⟨?order, ?shown, ?length, ?dropped, ?all⟩
  case order =>
    intro l
    exact byFallingWeight_iff
  case shown =>
    rfl
  case length =>
    rw [cappedAnnotations_eq_map, List.length_map, length_shownFindings]
  case dropped =>
    intro dropped hdropped kept hkept
    have hfalling : FallingWeight (ordered.take max ++ ordered.drop max) := by
      rw [List.take_append_drop]
      exact hordered.falling
    exact (List.pairwise_append.1 hfalling).2.2 kept hkept dropped hdropped
  case all =>
    intro hmax
    have hroom : (gravestFirst r.findings).length ≤ max := by
      rwa [(gravestFirst_perm r.findings).length_eq]
    rw [cappedAnnotations_eq_map, shownFindings, List.take_of_length_le hroom]
    exact (gravestFirst_perm r.findings).map _

/-- Two errors behind milder findings: with room for three findings the notice and the second
warning are left out, and with room for all of them none is. -/
theorem cappedAnnotations_heaviest_five :
    let finding (severity : Severity) (code : String) : FindingView :=
      ⟨severity, code, "", none, none⟩
    let notice := finding .info Finding.expectedInvalidCode
    let early := finding .warning Finding.expectedInvalidCode
    let late := finding .warning Finding.allowlistViolationCode
    let first := finding .error Finding.parseErrorCode
    let second := finding .error Finding.unrecognizedOutputCode
    let r : ReportView := ⟨.fail, [notice, early, first, late, second], 5, 0, 2, [], [], none⟩
    ByFallingWeight r.findings [first, second, early, late, notice] ∧
      r.cappedAnnotations 3 = [first, second, early].map (line none) ∧
      r.findings.length ≤ 5 ∧ (r.cappedAnnotations 5).Perm r.annotations := by
  intro finding notice early late first second r
  obtain ⟨horder, hshown, -⟩ := cappedAnnotations_heaviest r 3
  obtain ⟨-, -, -, -, hall⟩ := cappedAnnotations_heaviest r 5
  have hsorted : ByFallingWeight r.findings [first, second, early, late, notice] :=
    byFallingWeight_iff.2 (gravestFirst_eq_filter r.findings).symm
  have hroom : r.findings.length ≤ 5 := Nat.le_refl 5
  refine ⟨hsorted, ?_, hroom, hall hroom⟩
  rw [hshown, ← (horder _).1 hsorted]
  rfl

end ReportView

end ParseAudit
