import ParseAudit.Proofs.Glob.Validity
import ParseAudit.Proofs.RepoPath.Twice
/-!
# Patterns that are normalized like paths

A pattern is normalized like a path before it is matched.  Slashes mean nothing to a walk outside of
classes, and neither do segments that are dropped, so this does not put a fault into a pattern and
takes none out of it, as long as its slashes separate segments in the eyes of both.

* `slashesOutside`: the slashes of a pattern stand outside of its classes;
* `accepts_filter_iff`: segments that say nothing may be dropped;
* `accepts_normalize_iff`: a pattern that is normalized is at fault if it was before.
-/

namespace ParseAudit.Glob

open Anchored
open Chars (splitOnP_cons_of_not splitOnP_cons_separator of_mem_splitOnP)

namespace Position

/-- No slash stands in a class, or in one at most that is never closed. -/
def slashesOutside (p : Position) : List Char → Bool
  | [] => true
  | c :: cs => (c != '/' || p.mode == .plain || !cs.contains ']') &&
    match p.step c with
    | none => true
    | some q => q.slashesOutside cs

/-- The walk stands in a class. -/
def InClass (p : Position) : Prop := p.mode ≠ .plain ∧ p.mode ≠ .escaped

/-! ## Modes -/

/-- Behind a member of a class the walk stands in the class, unless the class was closed. -/
theorem mode_of_stepClass {depth : Nat} {first inRange : Bool} {low : Option Char} {c : Char}
    {q : Position} (h : stepClass depth first inRange low c = some q) :
    q.mode = .plain ∧ c = ']' ∨ q.InClass := by
  unfold stepClass at h
  split at h
  · next hclose =>
    cases h
    simp only [Bool.and_eq_true, beq_iff_eq] at hclose
    exact .inl ⟨rfl, hclose.1⟩
  · right
    split at h
    · cases h
      exact ⟨nofun, nofun⟩
    · split at h
      · split at h
        · split at h
          · cases h
          · cases h
            exact ⟨nofun, nofun⟩
        · cases h
          exact ⟨nofun, nofun⟩
      · cases h
        exact ⟨nofun, nofun⟩

/-- The mode behind a character outside of classes. -/
theorem mode_of_stepPlain {depth : Nat} {c : Char} {q : Position}
    (h : stepPlain depth c = some q) :
    q.mode = .plain ∨ q.mode = .escaped ∧ c = '\\' ∨ q.InClass := by
  unfold stepPlain at h
  split at h
  · cases h
    exact .inr (.inr ⟨nofun, nofun⟩)
  · split at h
    · cases h
      exact .inl rfl
    · split at h
      · split at h
        · cases h
        · cases h
          exact .inl rfl
      · split at h
        · next hescape =>
          cases h
          exact .inr (.inl ⟨rfl, hescape⟩)
        · cases h
          exact .inl rfl

/-- The mode behind any character. -/
theorem mode_of_step {p q : Position} {c : Char} (h : p.step c = some q) :
    q.mode = .plain ∧ (p.InClass → c = ']') ∨ q.mode = .escaped ∧ c = '\\' ∧ ¬p.InClass ∨
      q.InClass := by
  unfold step at h
  cases hmode : p.mode with
  | plain =>
    rw [hmode] at h
    have hplain : ¬p.InClass := fun hp => hp.1 hmode
    rcases mode_of_stepPlain h with hq | ⟨hq, hc⟩ | hq
    · exact .inl ⟨hq, fun hp => absurd hp hplain⟩
    · exact .inr (.inl ⟨hq, hc, hplain⟩)
    · exact .inr (.inr hq)
  | escaped =>
    rw [hmode] at h
    cases h
    exact .inl ⟨rfl, fun hp => absurd hmode hp.2⟩
  | opened =>
    rw [hmode] at h
    dsimp only at h
    split at h
    · cases h
      exact .inr (.inr ⟨nofun, nofun⟩)
    · rcases mode_of_stepClass h with ⟨hq, hc⟩ | hq
      · exact .inl ⟨hq, fun _ => hc⟩
      · exact .inr (.inr hq)
  | inClass first inRange low =>
    rw [hmode] at h
    rcases mode_of_stepClass h with ⟨hq, hc⟩ | hq
    · exact .inl ⟨hq, fun _ => hc⟩
    · exact .inr (.inr hq)

/-- A pattern does not end in a class that is never closed. -/
theorem InClass.not_accepts {p : Position} (hp : p.InClass) {cs : List Char} (hcs : ']' ∉ cs) :
    ¬p.Accepts cs := by
  induction cs generalizing p with
  | nil =>
    intro h
    exact hp.1 (congrArg Position.mode (Option.some.inj h))
  | cons c cs ih =>
    cases hstep : p.step c with
    | none => exact not_accepts_cons_of_step hstep
    | some q =>
      rw [accepts_cons_of_step hstep]
      have hclass : q.InClass := by
        rcases mode_of_step hstep with ⟨-, hc⟩ | ⟨-, -, hno⟩ | hq
        · exact absurd (hc hp ▸ List.mem_cons_self) hcs
        · exact absurd hp hno
        · exact hq
      exact ih hclass fun h => hcs (List.mem_cons_of_mem c h)

/-- Without a `\`, no character is taken as it is. -/
theorem plain_or_inClass_of_walk {p q : Position} {cs : List Char}
    (hp : p.mode = .plain ∨ p.InClass) (hcs : '\\' ∉ cs) (h : p.walk cs = some q) :
    q.mode = .plain ∨ q.InClass := by
  induction cs generalizing p with
  | nil =>
    cases h
    exact hp
  | cons c cs ih =>
    rw [walk_cons] at h
    obtain ⟨r, hstep, hrest⟩ := Option.bind_eq_some_iff.1 h
    refine ih ?_ (fun hmem => hcs (List.mem_cons_of_mem c hmem)) hrest
    rcases mode_of_step hstep with ⟨hr, -⟩ | ⟨-, hc, -⟩ | hr
    · exact .inl hr
    · exact absurd (hc ▸ List.mem_cons_self) hcs
    · exact .inr hr

/-! ## Slashes outside of classes -/

theorem slashesOutside_of_append {p q : Position} {a b : List Char}
    (h : p.slashesOutside (a ++ b) = true) (hwalk : p.walk a = some q) :
    q.slashesOutside b = true := by
  induction a generalizing p with
  | nil =>
    cases hwalk
    exact h
  | cons c a ih =>
    rw [walk_cons] at hwalk
    obtain ⟨r, hstep, hrest⟩ := Option.bind_eq_some_iff.1 hwalk
    rw [List.cons_append] at h
    unfold slashesOutside at h
    rw [hstep, Bool.and_eq_true] at h
    exact ih h.2 hrest

/-- Behind a slash the walk goes on outside of classes, or in one that is never closed. -/
theorem slash_cases {p : Position} {cs : List Char} (h : p.slashesOutside ('/' :: cs) = true)
    (hp : p.mode = .plain ∨ p.InClass) :
    p.step '/' = some p ∧ p.mode = .plain ∨ p.InClass ∧ ']' ∉ cs := by
  obtain ⟨depth, mode⟩ := p
  rcases hp with hplain | hclass
  · replace hplain : mode = .plain := hplain
    subst hplain
    exact .inl ⟨step_of_not_isMeta rfl depth, rfl⟩
  · unfold slashesOutside at h
    simp only [bne_self_eq_false, Bool.false_or, Bool.and_eq_true, Bool.or_eq_true, beq_iff_eq,
      Bool.not_eq_true', List.contains_eq_mem, decide_eq_false_iff_not] at h
    rcases h.1 with hplain | hnever
    · exact absurd hplain hclass.1
    · exact .inr ⟨hclass, hnever⟩

/-- Outside of classes a text without a mark changes nothing. -/
theorem walk_of_not_isMeta {text : List Char} (h : ∀ c ∈ text, isMeta c = false) (depth : Nat) :
    (⟨depth, .plain⟩ : Position).walk text = some ⟨depth, .plain⟩ := by
  induction text with
  | nil => rfl
  | cons c text ih =>
    rw [walk_cons, step_of_not_isMeta (h c List.mem_cons_self), Option.bind_some]
    exact ih fun d hd => h d (List.mem_cons_of_mem c hd)

/-- A text without a mark may stand in front. -/
theorem accepts_append_iff {front : List Char} (h : ∀ c ∈ front, isMeta c = false) {depth : Nat}
    {text : List Char} :
    (⟨depth, .plain⟩ : Position).Accepts (front ++ text) ↔
      (⟨depth, .plain⟩ : Position).Accepts text := by
  unfold Accepts
  rw [walk_append, walk_of_not_isMeta h, Option.bind_some]

theorem not_isMeta_of_not_isMeaningful {segment : List Char} (h : isMeaningful segment = false) :
    ∀ c ∈ segment, isMeta c = false := by
  unfold isMeaningful at h
  simp only [Bool.and_eq_false_iff, bne_eq_false_iff_eq] at h
  rcases h with rfl | rfl
  · exact nofun
  · rw [List.forall_mem_singleton]
    rfl

/-! ## Segments -/

theorem mem_intercalate_iff {segments : List (List Char)} {c : Char} (hc : c ≠ '/') :
    c ∈ ['/'].intercalate segments ↔ ∃ segment ∈ segments, c ∈ segment := by
  induction segments with
  | nil => exact iff_of_false List.not_mem_nil nofun
  | cons first rest ih =>
    cases rest with
    | nil => simp
    | cons second rest =>
      rw [intercalate_cons first (List.cons_ne_nil second rest), List.mem_append, List.mem_cons, ih,
        List.exists_mem_cons_iff]
      simp [hc]

/-- Behind the first of some segments the walk goes on over the others. -/
theorem accepts_intercalate_cons {p q : Position} {first : List Char}
    (hwalk : p.walk first = some q) (hslash : q.step '/' = some q) (rest : List (List Char)) :
    p.Accepts (['/'].intercalate (first :: rest)) ↔ q.Accepts (['/'].intercalate rest) := by
  cases rest with
  | nil =>
    unfold Accepts
    rw [List.intercalate_singleton, hwalk]
    rfl
  | cons second rest =>
    unfold Accepts
    rw [intercalate_cons first (List.cons_ne_nil second rest), walk_append, hwalk, Option.bind_some,
      walk_cons, hslash, Option.bind_some]

/-- A segment that cannot be read, or that ends in a class that is never closed, is a fault whatever
segments follow. -/
theorem not_accepts_intercalate_cons {p : Position} {first : List Char} {rest : List (List Char)}
    (h : ∀ q, p.walk first = some q → q.InClass ∧ ']' ∉ ['/'].intercalate rest) :
    ¬p.Accepts (['/'].intercalate (first :: rest)) := by
  obtain ⟨more, hmore, hfree⟩ : ∃ more, ['/'].intercalate (first :: rest) = first ++ more ∧
      (']' ∉ ['/'].intercalate rest → ']' ∉ more) := by
    cases rest with
    | nil => exact ⟨[], by rw [List.intercalate_singleton, List.append_nil], fun h => h⟩
    | cons second rest =>
      refine ⟨_, intercalate_cons first (List.cons_ne_nil second rest), fun h => ?_⟩
      exact List.not_mem_cons_of_ne_of_not_mem (by decide) h
  rw [hmore]
  unfold Accepts
  rw [walk_append]
  cases hwalk : p.walk first with
  | none => exact nofun
  | some q =>
    obtain ⟨hclass, hnever⟩ := h q hwalk
    exact hclass.not_accepts (hfree hnever)

/-- Behind the first of some segments the walk goes on outside of classes; or the segment is a
fault, whatever segments follow. -/
theorem walk_first_cases {depth : Nat} {first : List Char} {rest : List (List Char)}
    (hescape : '\\' ∉ first)
    (hslashes : (⟨depth, .plain⟩ : Position).slashesOutside
      (first ++ '/' :: ['/'].intercalate rest) = true) :
    (∃ d, (⟨depth, .plain⟩ : Position).walk first = some ⟨d, .plain⟩) ∨
      ∀ q, (⟨depth, .plain⟩ : Position).walk first = some q →
        q.InClass ∧ ']' ∉ ['/'].intercalate rest := by
  cases hwalk : (⟨depth, .plain⟩ : Position).walk first with
  | none => exact .inr nofun
  | some q =>
    have hmode := plain_or_inClass_of_walk (.inl rfl) hescape hwalk
    rcases slash_cases (slashesOutside_of_append hslashes hwalk) hmode with ⟨-, hplain⟩ | hclass
    · obtain ⟨d, mode⟩ := q
      replace hplain : mode = .plain := hplain
      exact .inl ⟨d, by rw [hplain]⟩
    · right
      rintro _ ⟨⟩
      exact hclass

/-- Segments that say nothing may be dropped. -/
theorem accepts_filter_iff {pieces : List (List Char)} {depth : Nat}
    (hescape : ∀ piece ∈ pieces, '\\' ∉ piece)
    (hslashes : (⟨depth, .plain⟩ : Position).slashesOutside (['/'].intercalate pieces) = true) :
    (⟨depth, .plain⟩ : Position).Accepts (['/'].intercalate pieces) ↔
      (⟨depth, .plain⟩ : Position).Accepts (['/'].intercalate (pieces.filter isMeaningful)) := by
  induction pieces generalizing depth with
  | nil => rfl
  | cons first rest ih =>
    by_cases hrest : rest = []
    · subst hrest
      cases hfirst : isMeaningful first with
      | true => rw [List.filter_cons_of_pos hfirst, List.filter_nil]
      | false =>
        rw [List.filter_cons_of_neg (by simp [hfirst]), List.filter_nil]
        exact accepts_intercalate_cons (walk_of_not_isMeta
          (not_isMeta_of_not_isMeaningful hfirst) depth) (step_of_not_isMeta rfl depth) []
    rw [intercalate_cons first hrest] at hslashes
    have hescapeRest : ∀ piece ∈ rest, '\\' ∉ piece :=
      fun piece hpiece => hescape piece (List.mem_cons_of_mem first hpiece)
    have hslash : ∀ d, (⟨d, .plain⟩ : Position).step '/' = some ⟨d, .plain⟩ :=
      step_of_not_isMeta rfl
    rcases walk_first_cases (hescape first List.mem_cons_self) hslashes with ⟨d, hwalk⟩ | hfault
    · have hslashesRest : (⟨d, .plain⟩ : Position).slashesOutside (['/'].intercalate rest) = true :=
        slashesOutside_of_append (slashesOutside_of_append hslashes hwalk)
          ((walk_cons _ '/' []).trans (by rw [hslash]; rfl))
      rw [accepts_intercalate_cons hwalk (hslash d), ih hescapeRest hslashesRest]
      cases hfirst : isMeaningful first with
      | true =>
        rw [List.filter_cons_of_pos hfirst]
        exact (accepts_intercalate_cons hwalk (hslash d) _).symm
      | false =>
        rw [walk_of_not_isMeta (not_isMeta_of_not_isMeaningful hfirst)] at hwalk
        cases hwalk
        rw [List.filter_cons_of_neg (by simp [hfirst])]
    · have hfirst : isMeaningful first = true := by
        by_contra hno
        have hwalk := walk_of_not_isMeta (not_isMeta_of_not_isMeaningful (by simpa using hno)) depth
        exact (hfault _ hwalk).1.1 rfl
      rw [List.filter_cons_of_pos hfirst]
      refine iff_of_false (not_accepts_intercalate_cons hfault) (not_accepts_intercalate_cons ?_)
      intro q hwalk
      obtain ⟨hclass, hnever⟩ := hfault q hwalk
      refine ⟨hclass, fun hmem => hnever ?_⟩
      obtain ⟨segment, hsegment, hin⟩ := (mem_intercalate_iff (by decide)).1 hmem
      exact (mem_intercalate_iff (by decide)).2 ⟨segment, List.mem_of_mem_filter hsegment, hin⟩

end Position

open Position

/-! ## Normalizing -/

/-- Without a `\`, a text is what it is cut into, with slashes between. -/
theorem intercalate_splitOnP {s : List Char} (h : '\\' ∉ s) :
    ['/'].intercalate (s.splitOnP isSeparator) = s := by
  induction s with
  | nil => rfl
  | cons c s ih =>
    have hs := ih fun hmem => h (List.mem_cons_of_mem c hmem)
    cases hc : isSeparator c with
    | true =>
      have hslash : c = '/' := by
        simp only [isSeparator, Bool.or_eq_true, beq_iff_eq] at hc
        rcases hc with rfl | rfl
        · rfl
        · exact absurd List.mem_cons_self h
      rw [splitOnP_cons_separator hc, intercalate_cons [] (List.splitOnP_ne_nil _ _), hs, hslash]
      rfl
    | false =>
      obtain ⟨first, rest, hsplit⟩ :=
        List.exists_cons_of_ne_nil (List.splitOnP_ne_nil isSeparator s)
      rw [splitOnP_cons_of_not hc hsplit]
      rw [hsplit] at hs
      cases rest with
      | nil =>
        rw [List.intercalate_singleton] at hs ⊢
        rw [hs]
      | cons second rest =>
        rw [intercalate_cons _ (List.cons_ne_nil second rest)] at hs ⊢
        rw [List.cons_append, hs]

theorem not_isMeta_of_isSeparator {c : Char} (h : isSeparator c = true) (hc : c ≠ '\\') :
    isMeta c = false := by
  simp only [isSeparator, Bool.or_eq_true, beq_iff_eq] at h
  rcases h with rfl | rfl
  · rfl
  · exact absurd rfl hc

theorem not_isMeta_of_isAlpha {c : Char} (h : c.isAlpha = true) : isMeta c = false := by
  by_contra hmeta
  simp only [isMeta, Bool.not_eq_false, Bool.or_eq_true, beq_iff_eq] at hmeta
  rcases hmeta with ((rfl | rfl) | rfl) | rfl
  · revert h; decide
  · revert h; decide
  · revert h; decide
  · revert h; decide

/-- What stands in front of the segments of a text means nothing outside of classes. -/
theorem exists_front (s : List Char) :
    ∃ front, s = front ++ (splitRoot s).2 ∧ ∀ c ∈ front, c ≠ '\\' → isMeta c = false := by
  fun_cases splitRoot s with
  | case1 | case3 | case6 | case9 => exact ⟨[], rfl, nofun⟩
  | case2 c hc | case4 c d hc | case7 c d e rest hc =>
    exact ⟨[c], rfl, by simpa using not_isMeta_of_isSeparator hc⟩
  | case5 c d hc hdrive =>
    simp only [Bool.and_eq_true, beq_iff_eq] at hdrive
    obtain ⟨halpha, rfl⟩ := hdrive
    refine ⟨[c, ':'], rfl, ?_⟩
    simpa using ⟨fun _ => not_isMeta_of_isAlpha halpha, rfl⟩
  | case8 c d e rest hc hdrive =>
    simp only [Bool.and_eq_true, beq_iff_eq] at hdrive
    obtain ⟨⟨halpha, rfl⟩, he⟩ := hdrive
    refine ⟨[c, ':', e], rfl, ?_⟩
    simpa using ⟨fun _ => not_isMeta_of_isAlpha halpha, rfl, not_isMeta_of_isSeparator he⟩

/-- A pattern is at fault if its segments are. -/
theorem accepts_segments_iff {s : List Char} (hescape : '\\' ∉ s)
    (hslashes : start.slashesOutside s = true) :
    start.Accepts s ↔ start.Accepts (['/'].intercalate (ofChars s).segments) := by
  obtain ⟨front, hs, hmeta⟩ := exists_front s
  have hfront : ∀ c ∈ front, isMeta c = false := by
    intro c hc
    refine hmeta c hc fun heq => hescape ?_
    rw [hs]
    exact List.mem_append_left _ (heq ▸ hc)
  have hwalk : start.walk front = some start := walk_of_not_isMeta hfront 0
  have hrest : '\\' ∉ (splitRoot s).2 := by
    intro hmem
    rw [hs] at hescape
    exact hescape (List.mem_append_right _ hmem)
  have hpieces : ∀ piece ∈ (splitRoot s).2.splitOnP isSeparator, '\\' ∉ piece := by
    intro piece hpiece hmem
    have hsep := isSeparator_of_mem_splitOnP hpiece _ hmem
    cases hsep
  rw [hs] at hslashes
  have hslashesRest := slashesOutside_of_append hslashes hwalk
  rw [← intercalate_splitOnP hrest] at hslashesRest
  calc start.Accepts s
      ↔ start.Accepts (front ++ (splitRoot s).2) := by rw [← hs]
    _ ↔ start.Accepts (splitRoot s).2 := accepts_append_iff hfront
    _ ↔ start.Accepts (['/'].intercalate ((splitRoot s).2.splitOnP isSeparator)) := by
        rw [intercalate_splitOnP hrest]
    _ ↔ start.Accepts (['/'].intercalate (ofChars s).segments) :=
        accepts_filter_iff hpieces hslashesRest

/-- The text of a path is at fault if its segments are. -/
theorem accepts_toChars_iff {p : Anchored} (hp : p.Proper) :
    start.Accepts p.toChars ↔ start.Accepts (['/'].intercalate p.segments) := by
  obtain ⟨root, segments⟩ := p
  cases root with
  | relative =>
    cases segments with
    | nil =>
      show start.Accepts (['.'] ++ []) ↔ _
      exact accepts_append_iff (List.forall_mem_singleton.2 rfl)
    | cons first rest => rfl
  | slash =>
    show start.Accepts (['/'] ++ _) ↔ _
    exact accepts_append_iff (List.forall_mem_singleton.2 rfl)
  | drive c =>
    show start.Accepts ([c, ':', '/'] ++ _) ↔ _
    refine accepts_append_iff ?_
    simpa using ⟨not_isMeta_of_isAlpha (hp.letter c rfl), rfl, rfl⟩

/-- Segments without a mark may stand in front. -/
theorem accepts_intercalate_append_iff {front : List (List Char)}
    (h : ∀ segment ∈ front, ∀ c ∈ segment, isMeta c = false) (segments : List (List Char)) :
    start.Accepts (['/'].intercalate (front ++ segments)) ↔
      start.Accepts (['/'].intercalate segments) := by
  induction front with
  | nil => rfl
  | cons first front ih =>
    have hfirst : start.walk first = some start :=
      walk_of_not_isMeta (h first List.mem_cons_self) 0
    rw [List.cons_append, accepts_intercalate_cons hfirst (step_of_not_isMeta rfl 0)]
    exact ih fun segment hsegment => h segment (List.mem_cons_of_mem first hsegment)

/-- A base directory without a mark in its text has none in its segments. -/
theorem not_isMeta_of_mem_segments {base : List Char}
    (h : ∀ c ∈ base, c ≠ '[' ∧ c ≠ '{' ∧ c ≠ '}') :
    ∀ segment ∈ (ofChars base).segments, ∀ c ∈ segment, isMeta c = false := by
  intro segment hsegment c hc
  have hpiece : segment ∈ (splitRoot base).2.splitOnP isSeparator := (List.mem_filter.1 hsegment).1
  obtain ⟨hmem, hsep⟩ := of_mem_splitOnP hpiece hc
  obtain ⟨front, hbase, -⟩ := exists_front base
  obtain ⟨hclass, hopen, hclose⟩ := h c (by rw [hbase]; exact List.mem_append_right front hmem)
  simp only [isMeta, Bool.or_eq_false_iff, beq_eq_false_iff_ne]
  refine ⟨⟨⟨hclass, hopen⟩, hclose⟩, ?_⟩
  rintro rfl
  cases hsep

/-- A pattern that is normalized is at fault if it was before. -/
theorem accepts_normalize_iff {pattern base : String} (hescape : '\\' ∉ pattern.toList)
    (hslashes : start.slashesOutside pattern.toList = true)
    (hbase : ∀ c ∈ base.toList, c ≠ '[' ∧ c ≠ '{' ∧ c ≠ '}') :
    start.Accepts (RepoPath.normalize pattern base).text.toList ↔ start.Accepts pattern.toList := by
  have hproper := (proper_ofChars pattern.toList).seenFrom (ofChars base.toList)
  rw [RepoPath.toList_normalize, accepts_toChars_iff hproper, accepts_segments_iff hescape hslashes]
  unfold seenFrom
  cases hbelow : (ofChars pattern.toList).below? (ofChars base.toList) with
  | none => rfl
  | some segments =>
    dsimp only
    obtain ⟨-, hsegments⟩ := below?_eq_some_iff.1 hbelow
    rw [hsegments]
    exact (accepts_intercalate_append_iff (not_isMeta_of_mem_segments hbase) segments).symm

end ParseAudit.Glob
