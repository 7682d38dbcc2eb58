import ParseAudit.Text.Lines
import ParseAudit.Proofs.Text.Trimmed
import Mathlib.Data.List.Basic
/-!
# Lines that are put together

A text that is put together from lines is read as these lines again, but for one carriage return in
front of each line feed.

* `lines_append`: the lines up to a line feed do not depend on what follows;
* `lines_flatMap_feed`: lines that each end in a line feed;
* `lines_intercalate`: lines with line feeds between them;
* `splitOn_flatMap_feed`: the same for a reader that keeps carriage returns;
* `feed_not_mem_of_mem_lines`: no line that is read holds a line feed;
* `allBlank_iff_forall_lines`: a text is blank if its lines are;
* `map_trim_splitOn`: for a reader that trims its lines it does not matter which way it reads them.
-/

namespace ParseAudit.Chars

/-- A line without the carriage return at its end, if it has one there. -/
def withoutReturn (l : List Char) : List Char := if l.getLast? = some '\r' then l.dropLast else l

theorem withoutReturn_cons (c d : Char) (l : List Char) :
    withoutReturn (c :: d :: l) = c :: withoutReturn (d :: l) := by
  simp only [withoutReturn, List.getLast?_cons_cons]
  split <;> rfl

theorem withoutReturn_eq_self {l : List Char} (h : l.getLast? ≠ some '\r') :
    withoutReturn l = l := if_neg h

/-- A carriage return at the end is blank. -/
theorem trim_withoutReturn (l : List Char) : trim (withoutReturn l) = trim l := by
  by_cases h : l.getLast? = some '\r'
  · have hl : withoutReturn l ++ ['\r'] = l := by
      unfold withoutReturn
      rw [if_pos h]
      exact List.dropLast_append_getLast? '\r' h
    have hblank : AllBlank ['\r'] := by decide
    rw [← trim_append_blank hblank, hl]
  · rw [withoutReturn_eq_self h]

/-- A character that is no line end belongs to the line that follows it. -/
theorem lines_cons {c : Char} {cs : List Char} (hfeed : c ≠ '\n')
    (hreturn : c = '\r' → cs.head? ≠ some '\n') :
    lines (c :: cs) = match lines cs with
      | [] => [[c]]
      | l :: ls => (c :: l) :: ls := by
  refine (lines.eq_4 c cs hfeed ?_).trans ?_
  · intro rest hc hcs
    subst hcs
    exact hreturn hc rfl
  · cases lines cs <;> rfl

/-- The line up to the first line feed comes first. -/
theorem lines_append_feed {l rest : List Char} (h : '\n' ∉ l) :
    lines (l ++ '\n' :: rest) = withoutReturn l :: lines rest := by
  induction l with
  | nil => simp [lines, withoutReturn]
  | cons c cs ih =>
    have hc : c ≠ '\n' := fun e => h (e ▸ List.mem_cons_self)
    have hcs : '\n' ∉ cs := fun m => h (List.mem_cons_of_mem c m)
    cases cs with
    | nil =>
      by_cases hr : c = '\r'
      · subst hr
        simp [lines, withoutReturn]
      · rw [List.cons_append, lines_cons hc (fun e => absurd e hr), ih hcs]
        simp [withoutReturn, hr]
    | cons d ds =>
      have hd : d ≠ '\n' := fun e => hcs (e ▸ List.mem_cons_self)
      have hnext : (d :: ds ++ '\n' :: rest).head? ≠ some '\n' := by simpa using hd
      rw [List.cons_append, lines_cons hc (fun _ => hnext), ih hcs, withoutReturn_cons]

/-- The lines up to a line feed come first, whatever they hold. -/
theorem lines_append (l rest : List Char) :
    lines (l ++ '\n' :: rest) = lines (l ++ ['\n']) ++ lines rest := by
  induction hlength : l.length using Nat.strong_induction_on generalizing l with
  | _ n ih =>
    by_cases h : '\n' ∈ l
    · -- The first line feed of `l` ends a line on both sides.
      obtain ⟨first, others, rfl, hfirst⟩ := List.eq_append_cons_of_mem h
      have hshort : others.length < n := by
        rw [← hlength, List.length_append, List.length_cons]
        omega
      rw [List.append_assoc, List.append_assoc, List.cons_append, List.cons_append,
        lines_append_feed hfirst, lines_append_feed hfirst, ih _ hshort others rfl,
        List.cons_append]
    · rw [lines_append_feed h, lines_append_feed h]
      rfl

/-- Finished lines are lines of whatever they are continued to. -/
theorem lines_append_of_getLast? {s : List Char} (h : s.getLast? = some '\n') (more : List Char) :
    lines (s ++ more) = lines s ++ lines more := by
  obtain ⟨init, rfl⟩ := List.getLast?_eq_some_iff.1 h
  rw [List.append_assoc, List.singleton_append, lines_append]

/-- Texts that each get a line feed at their end keep their lines apart. -/
theorem mem_lines_flatMap_iff {texts : List (List Char)} {line : List Char} :
    line ∈ lines (texts.flatMap (· ++ ['\n'])) ↔ ∃ text ∈ texts, line ∈ lines (text ++ ['\n']) := by
  induction texts with
  | nil => simp [lines]
  | cons text texts ih =>
    rw [List.flatMap_cons, List.append_assoc, List.singleton_append, lines_append,
      List.mem_append, ih, List.exists_mem_cons_iff]

/-- A text without a line feed is one line, unless it is empty. -/
theorem lines_of_not_mem {l : List Char} (h : '\n' ∉ l) (hne : l ≠ []) : lines l = [l] := by
  induction l with
  | nil => exact absurd rfl hne
  | cons c cs ih =>
    have hc : c ≠ '\n' := fun e => h (e ▸ List.mem_cons_self)
    have hcs : '\n' ∉ cs := fun m => h (List.mem_cons_of_mem c m)
    have hnext : c = '\r' → cs.head? ≠ some '\n' :=
      fun _ hn => hcs (List.mem_of_mem_head? hn)
    rw [lines_cons hc hnext]
    cases cs with
    | nil => rfl
    | cons d ds => rw [ih hcs (List.cons_ne_nil d ds)]

/-- Lines that each end in a line feed are read back, in front of whatever follows. -/
theorem lines_flatMap_feed {ls : List (List Char)} (h : ∀ l ∈ ls, '\n' ∉ l) (rest : List Char) :
    lines (ls.flatMap (· ++ ['\n']) ++ rest) = ls.map withoutReturn ++ lines rest := by
  induction ls with
  | nil => rfl
  | cons l ls ih =>
    have hl : '\n' ∉ l := h l List.mem_cons_self
    have hls : ∀ k ∈ ls, '\n' ∉ k := fun k hk => h k (List.mem_cons_of_mem l hk)
    rw [List.flatMap_cons, List.append_assoc, List.append_assoc, List.singleton_append,
      lines_append_feed hl, ih hls]
    rfl

/-- Lines with line feeds between them are read back. -/
theorem lines_intercalate {ls : List (List Char)}
    (h : ∀ l ∈ ls, '\n' ∉ l ∧ l.getLast? ≠ some '\r' ∧ l ≠ []) :
    lines (['\n'].intercalate ls) = ls := by
  induction ls with
  | nil => rfl
  | cons l ls ih =>
    obtain ⟨hfeed, hreturn, hne⟩ := h l List.mem_cons_self
    have hls := ih fun k hk => h k (List.mem_cons_of_mem l hk)
    cases ls with
    | nil =>
      rw [List.intercalate_singleton]
      exact lines_of_not_mem hfeed hne
    | cons k ks =>
      rw [List.intercalate_cons_cons, List.append_assoc, List.singleton_append,
        lines_append_feed hfeed, hls, withoutReturn_eq_self hreturn]

/-- Split at its line feeds alone, a text of whole lines gives them as they are. -/
theorem splitOn_flatMap_feed {ls : List (List Char)} (h : ∀ l ∈ ls, '\n' ∉ l) (rest : List Char) :
    (ls.flatMap (· ++ ['\n']) ++ rest).splitOn '\n' = ls ++ rest.splitOn '\n' := by
  induction ls with
  | nil => rfl
  | cons l ls ih =>
    have hl : ∀ c ∈ l, (c == '\n') = false :=
      fun c hc => beq_false_of_ne fun heq => h l List.mem_cons_self (heq ▸ hc)
    have hls := ih fun k hk => h k (List.mem_cons_of_mem l hk)
    rw [List.flatMap_cons, List.append_assoc, List.append_assoc, List.singleton_append,
      List.cons_append, ← hls]
    exact List.splitOnP_append_cons_of_forall_mem hl '\n' rfl _

/-- No line of a text holds a line feed. -/
theorem feed_not_mem_of_mem_lines {s line : List Char} (h : line ∈ lines s) : '\n' ∉ line := by
  fun_induction lines s generalizing line with
  | case1 => cases h
  | case2 cs ih | case3 cs ih =>
    rcases List.mem_cons.1 h with rfl | h
    · exact List.not_mem_nil
    · exact ih h
  | case4 c cs hfeed hreturn hnil ih =>
    obtain rfl := List.mem_singleton.1 h
    simpa using fun heq : '\n' = c => hfeed heq.symm
  | case5 c cs hfeed hreturn l ls hcs ih =>
    rw [hcs] at ih
    rcases List.mem_cons.1 h with rfl | h
    · exact List.not_mem_cons_of_ne_of_not_mem (Ne.symm hfeed) (ih List.mem_cons_self)
    · exact ih (List.mem_cons_of_mem l h)

/-- A text is blank if its lines are, since its line ends are blank anyway. -/
theorem allBlank_iff_forall_lines {s : List Char} :
    AllBlank s ↔ ∀ line ∈ lines s, AllBlank line := by
  have hcons : ∀ {c : Char} {cs : List Char},
      AllBlank (c :: cs) ↔ isBlank c = true ∧ AllBlank cs := List.forall_mem_cons
  have hfeed : isBlank '\n' = true := by decide
  have hreturn : isBlank '\r' = true := by decide
  fun_induction lines s with
  | case1 => exact iff_of_true allBlank_nil nofun
  | case2 cs ih => simp only [hcons, hfeed, true_and, List.forall_mem_cons, allBlank_nil, ih]
  | case3 cs ih =>
    simp only [hcons, hfeed, hreturn, true_and, List.forall_mem_cons, allBlank_nil, ih]
  | case4 c cs _ _ hnil ih =>
    have hcs : AllBlank cs := ih.2 (hnil ▸ nofun)
    simp only [hcons, hcs, List.forall_mem_singleton, allBlank_nil]
  | case5 c cs _ _ l ls hls ih =>
    rw [hls] at ih
    simp only [hcons, ih, List.forall_mem_cons, and_assoc]

/-- Split at its line feeds alone, a text has the lines that it is read as, but for blanks at their
ends and for an empty one behind the last line feed. -/
theorem map_trim_splitOn (s : List Char) :
    ∃ behind, (∀ l ∈ behind, trim l = []) ∧
      (s.splitOn '\n').map trim = (lines s ++ behind).map trim := by
  induction hlength : s.length using Nat.strong_induction_on generalizing s with
  | _ n ih =>
    by_cases h : '\n' ∈ s
    · obtain ⟨first, others, rfl, hfirst⟩ := List.eq_append_cons_of_mem h
      have hshort : others.length < n := by
        rw [← hlength, List.length_append, List.length_cons]
        omega
      obtain ⟨behind, hbehind, hothers⟩ := ih _ hshort others rfl
      refine ⟨behind, hbehind, ?_⟩
      rw [List.splitOn_append_cons_self_of_not_mem hfirst, lines_append_feed hfirst,
        List.cons_append, List.map_cons, List.map_cons, trim_withoutReturn, hothers]
    · rw [List.splitOn_eq_singleton h]
      cases s with
      | nil => exact ⟨[[]], by decide, rfl⟩
      | cons c cs =>
        rw [lines_of_not_mem h (List.cons_ne_nil c cs)]
        exact ⟨[], nofun, rfl⟩

end ParseAudit.Chars
