import ParseAudit.Glob.Pattern
import Mathlib.Tactic.SplitIfs
/-!
# Patterns without a fault

Whether a pattern is at fault does not depend on the tokens that it is read into.  A walk over its
characters decides it, which only knows how many groups are open and whether it stands in a class;
unlike the reading of tokens, a walk over a text is one over its first part and then one over the
rest.

* `walk_append`: walks one after another;
* `accepts_inClass_iff`: the end of a class;
* `tokens_eq_ok_iff`: a pattern is read if the walk over it ends outside of classes and groups.
-/

namespace ParseAudit.Glob

theorem splitNegation_cons {c : Char} (h : ¬(c = '!' ∨ c = '^')) (cs : List Char) :
    splitNegation (c :: cs) = (false, c :: cs) := by
  unfold splitNegation
  split
  · simp_all
  · simp_all
  · rfl

/-- What the next character of a pattern is taken for. -/
inductive Mode where
  | plain
  /-- The character behind a `\`. -/
  | escaped
  /-- The character behind the opening of a class. -/
  | opened
  /-- A member of a class: whether it is the first one, whether it ends a range, and the lower end
  of the latest range. -/
  | inClass (first inRange : Bool) (low : Option Char)
  deriving DecidableEq

/-- How far a walk has come: the number of open groups, and the mode. -/
structure Position where
  depth : Nat
  mode : Mode
  deriving DecidableEq

namespace Position

/-- A member of a class is read. -/
def stepClass (depth : Nat) (first inRange : Bool) (low : Option Char) (c : Char) :
    Option Position :=
  if c == ']' && !first then some ⟨depth, .plain⟩
  else if c == '-' && !first && !inRange then some ⟨depth, .inClass false true low⟩
  else if inRange then
    match low with
    | some l => if c < l then none else some ⟨depth, .inClass false false low⟩
    | none => some ⟨depth, .inClass false false (some c)⟩
  else some ⟨depth, .inClass false false (some c)⟩

/-- The characters that mean something to a walk outside of classes. -/
def isMeta (c : Char) : Bool := c == '[' || c == '{' || c == '}' || c == '\\'

/-- A character outside of classes is read. -/
def stepPlain (depth : Nat) (c : Char) : Option Position :=
  if c = '[' then some ⟨depth, .opened⟩
  else if c = '{' then some ⟨depth + 1, .plain⟩
  else if c = '}' then if depth = 0 then none else some ⟨depth - 1, .plain⟩
  else if c = '\\' then some ⟨depth, .escaped⟩
  else some ⟨depth, .plain⟩

/-- A character is read, if it can stand there. -/
def step (p : Position) (c : Char) : Option Position :=
  match p.mode with
  | .plain => stepPlain p.depth c
  | .escaped => some ⟨p.depth, .plain⟩
  | .opened =>
    if c = '!' ∨ c = '^' then some ⟨p.depth, .inClass true false none⟩
    else stepClass p.depth true false none c
  | .inClass first inRange low => stepClass p.depth first inRange low c

/-- A text is read. -/
def walk (p : Position) : List Char → Option Position
  | [] => some p
  | c :: cs => (p.step c).bind (walk · cs)

/-- The start of a pattern. -/
def start : Position := ⟨0, .plain⟩

/-- A pattern may end with the text. -/
def Accepts (p : Position) (text : List Char) : Prop := p.walk text = some start

instance (p : Position) (text : List Char) : Decidable (p.Accepts text) :=
  inferInstanceAs (Decidable (_ = _))

/-- Walks one after another. -/
theorem walk_append (p : Position) (a b : List Char) :
    p.walk (a ++ b) = (p.walk a).bind (·.walk b) := by
  induction a generalizing p with
  | nil => rfl
  | cons c a ih =>
    show (p.step c).bind _ = ((p.step c).bind _).bind _
    rw [Option.bind_assoc]
    exact Option.bind_congr fun q _ => ih q

theorem walk_cons (p : Position) (c : Char) (cs : List Char) :
    p.walk (c :: cs) = (p.step c).bind (·.walk cs) := rfl

/-- Most characters change nothing outside of classes. -/
theorem step_of_not_isMeta {c : Char} (h : isMeta c = false) (depth : Nat) :
    (⟨depth, .plain⟩ : Position).step c = some ⟨depth, .plain⟩ := by
  simp only [isMeta, Bool.or_eq_false_iff, beq_eq_false_iff_ne] at h
  obtain ⟨⟨⟨hclass, hopen⟩, hclose⟩, hescape⟩ := h
  show stepPlain depth c = _
  unfold stepPlain
  rw [if_neg hclass, if_neg hopen, if_neg hclose, if_neg hescape]

theorem accepts_cons_of_step {p q : Position} {c : Char} (h : p.step c = some q) {cs : List Char} :
    p.Accepts (c :: cs) ↔ q.Accepts cs := by
  unfold Accepts
  rw [walk_cons, h, Option.bind_some]

theorem not_accepts_cons_of_step {p : Position} {c : Char} (h : p.step c = none) {cs : List Char} :
    ¬p.Accepts (c :: cs) := by
  unfold Accepts
  rw [walk_cons, h]
  exact nofun

/-- A pattern does not end anywhere but at the start. -/
theorem not_accepts_nil {p : Position} (h : p ≠ start) : ¬p.Accepts [] :=
  fun hnil => h (Option.some.inj hnil)

/-! ## Classes -/

/-- A class is read up to its end, and then the rest. -/
theorem accepts_inClass_iff {depth : Nat} {first inRange : Bool} {ranges : List (Char × Char)}
    {cs : List Char} :
    (⟨depth, .inClass first inRange (ranges.head?.map Prod.fst)⟩ : Position).Accepts cs ↔
      ∃ out rest, readClass first inRange ranges cs = .ok (out, rest) ∧
        (⟨depth, .plain⟩ : Position).Accepts rest := by
  induction cs generalizing first inRange ranges with
  | nil =>
    refine iff_of_false (not_accepts_nil (by simp [start])) ?_
    rintro ⟨out, rest, h, -⟩
    cases h
  | cons c cs ih =>
    have hstep : (⟨depth, .inClass first inRange (ranges.head?.map Prod.fst)⟩ : Position).step c =
      stepClass depth first inRange (ranges.head?.map Prod.fst) c := rfl
    unfold stepClass at hstep
    unfold readClass
    by_cases hclose : (c == ']' && !first) = true
    · rw [if_pos hclose] at hstep ⊢
      rw [accepts_cons_of_step hstep]
      constructor
      · exact fun h => ⟨_, cs, rfl, h⟩
      · rintro ⟨out, rest, hread, h⟩
        cases hread
        exact h
    rw [if_neg hclose] at hstep ⊢
    by_cases hdash : (c == '-' && !first && !inRange) = true
    · rw [if_pos hdash] at hstep ⊢
      rw [accepts_cons_of_step hstep, ih]
    rw [if_neg hdash] at hstep ⊢
    cases inRange with
    | false =>
      rw [accepts_cons_of_step hstep]
      exact @ih false false ((c, c) :: ranges)
    | true =>
      cases ranges with
      | nil =>
        rw [accepts_cons_of_step hstep]
        exact @ih false false [(c, c)]
      | cons range others =>
        obtain ⟨low, high⟩ := range
        replace hstep : _ = if c < low then none else _ := hstep
        dsimp only
        by_cases hreversed : c < low
        · rw [if_pos hreversed] at hstep
          rw [if_pos hreversed]
          refine iff_of_false (not_accepts_cons_of_step hstep) ?_
          rintro ⟨out, rest, h, -⟩
          cases h
        · rw [if_neg hreversed] at hstep
          rw [if_neg hreversed, accepts_cons_of_step hstep]
          exact @ih false false ((low, c) :: others)

/-- Behind the opening of a class its negation is passed over. -/
theorem accepts_opened_iff {depth : Nat} {cs : List Char} :
    (⟨depth, .opened⟩ : Position).Accepts cs ↔
      ∃ out rest, readClass true false [] (splitNegation cs).2 = .ok (out, rest) ∧
        (⟨depth, .plain⟩ : Position).Accepts rest := by
  rw [← accepts_inClass_iff]
  cases cs with
  | nil =>
    exact iff_of_false (not_accepts_nil (by simp [start])) (not_accepts_nil (by simp [start]))
  | cons c cs =>
    by_cases hnegation : c = '!' ∨ c = '^'
    · have hstep : (⟨depth, .opened⟩ : Position).step c = some ⟨depth, .inClass true false none⟩ :=
        if_pos hnegation
      rw [accepts_cons_of_step hstep]
      rcases hnegation with rfl | rfl
      · rfl
      · rfl
    · have hsplit := splitNegation_cons hnegation cs
      have hstep : (⟨depth, .opened⟩ : Position).step c =
          (⟨depth, .inClass true false none⟩ : Position).step c := if_neg hnegation
      rw [hsplit]
      unfold Accepts
      rw [walk_cons, walk_cons, hstep]
      rfl

end Position

/-! ## Tokens -/

namespace State

@[simp] theorem push_outer (s : State) (token : Token) : (s.push token).outer = s.outer := rfl

theorem replaceSlash_outer (s : State) (token : Token) :
    (s.replaceSlash token).outer = s.outer := by
  unfold replaceSlash
  split <;> rfl

/-- Two stars leave the groups alone, and take at most a slash of what follows. -/
theorem readDoubleStar_cases (s : State) (before : Option Char) (cs : List Char) :
    (s.readDoubleStar before cs).1.outer = s.outer ∧
      (cs = (s.readDoubleStar before cs).2.2 ∨ cs = '/' :: (s.readDoubleStar before cs).2.2) := by
  unfold readDoubleStar
  grind [push_outer, replaceSlash_outer]

theorem inGroup_iff (s : State) : s.inGroup = false ↔ s.outer.length = 0 := by
  unfold inGroup
  simp

theorem closeGroup_cases (s : State) :
    (s.outer = [] ∧ s.closeGroup = .error .unopenedAlternates) ∨
      ∃ next, s.closeGroup = .ok next ∧ s.outer.length = next.outer.length + 1 := by
  unfold closeGroup
  cases houter : s.outer with
  | nil => exact .inl ⟨rfl, rfl⟩
  | cons frame outer => exact .inr ⟨_, rfl, rfl⟩

open Position

/-- The reading of tokens is a walk. -/
theorem read_iff_accepts (s : State) (before : Option Char) (text : List Char) :
    (∃ s', s.read before text = .ok s' ∧ s'.inGroup = false) ↔
      (⟨s.outer.length, .plain⟩ : Position).Accepts text := by
  fun_induction State.read s before text with
  | case1 s before =>
    constructor
    · rintro ⟨_, ⟨⟩, h⟩
      rw [(inGroup_iff s).1 h]
      rfl
    · intro h
      refine ⟨s, rfl, (inGroup_iff s).2 ?_⟩
      exact congrArg Position.depth (Option.some.inj h)
  | case2 s before cs ih => rw [ih, accepts_cons_of_step (step_of_not_isMeta rfl _), push_outer]
  | case3 s before cs next last rest hstars ih =>
    obtain ⟨houter, hrest⟩ := readDoubleStar_cases s before cs
    rw [hstars] at houter hrest
    dsimp only at houter hrest
    rw [ih, accepts_cons_of_step (step_of_not_isMeta rfl _),
      accepts_cons_of_step (step_of_not_isMeta rfl _), houter]
    rcases hrest with rfl | rfl
    · rfl
    · exact (accepts_cons_of_step (step_of_not_isMeta rfl _)).symm
  | case4 s before cs hstars ih =>
    rw [ih, accepts_cons_of_step (step_of_not_isMeta rfl _), push_outer]
  | case5 s before cs fault hclass =>
    rw [accepts_cons_of_step (q := ⟨s.outer.length, .opened⟩) rfl, accepts_opened_iff, hclass]
    exact iff_of_false (fun ⟨_, h, _⟩ => nomatch h) (fun ⟨_, _, h, _⟩ => nomatch h)
  | case6 s before cs ranges rest hclass ih =>
    rw [ih, push_outer, accepts_cons_of_step (q := ⟨s.outer.length, .opened⟩) rfl,
      accepts_opened_iff, hclass]
    constructor
    · exact fun h => ⟨ranges, rest, rfl, h⟩
    · rintro ⟨_, _, ⟨⟩, h⟩
      exact h
  | case7 s before cs ih =>
    rw [ih, accepts_cons_of_step (q := ⟨s.outer.length + 1, .plain⟩) rfl]
    rfl
  | case8 s before cs fault hclose =>
    rcases closeGroup_cases s with ⟨houter, -⟩ | ⟨next, hnext, -⟩
    · rw [houter]
      exact iff_of_false (fun ⟨_, h, _⟩ => nomatch h) (not_accepts_cons_of_step rfl)
    · rw [hclose] at hnext
      cases hnext
  | case9 s before cs next hclose ih =>
    rcases closeGroup_cases s with ⟨-, herror⟩ | ⟨next', hnext, hlength⟩
    · rw [hclose] at herror
      cases herror
    · rw [hclose] at hnext
      cases hnext
      rw [ih, hlength, accepts_cons_of_step (q := ⟨next.outer.length, .plain⟩) rfl]
  | case10 s before cs ih =>
    have houter : (if s.inGroup = true then s.nextBranch else s.push (.literal ',')).outer =
        s.outer := by
      split <;> rfl
    rw [dite_eq_ite] at ih
    rw [ih, houter, accepts_cons_of_step (step_of_not_isMeta rfl _)]
  | case11 s before =>
    rw [accepts_cons_of_step (q := ⟨s.outer.length, .escaped⟩) rfl]
    exact iff_of_false (fun ⟨_, h, _⟩ => nomatch h)
      fun h => nomatch congrArg Position.mode (Option.some.inj h)
  | case12 s before c cs ih =>
    rw [ih, push_outer, accepts_cons_of_step (q := ⟨s.outer.length, .escaped⟩) rfl,
      accepts_cons_of_step (q := ⟨s.outer.length, .plain⟩) rfl]
  | case13 s before c cs _ _ _ hclass hopen hclose _ hescape hescape' ih =>
    have hmeta : isMeta c = false := by
      simp only [isMeta, Bool.or_eq_false_iff, beq_eq_false_iff_ne]
      refine ⟨⟨⟨hclass, hopen⟩, hclose⟩, ?_⟩
      rintro rfl
      cases cs with
      | nil => exact hescape rfl rfl
      | cons d ds => exact hescape' d ds rfl rfl
    rw [ih, push_outer, accepts_cons_of_step (step_of_not_isMeta hmeta _)]

end State

/-- A pattern is read if the walk over it ends outside of classes and groups. -/
theorem tokens_eq_ok_iff {text : List Char} :
    (∃ out, tokens text = .ok out) ↔ Position.start.Accepts text := by
  have hread := State.read_iff_accepts .start none text
  refine Iff.trans ?_ hread
  unfold tokens
  cases h : State.start.read none text with
  | error fault => exact iff_of_false (fun ⟨_, h⟩ => nomatch h) (fun ⟨_, h, _⟩ => nomatch h)
  | ok s =>
    constructor
    · rintro ⟨out, hout⟩
      refine ⟨s, rfl, ?_⟩
      cases hgroup : s.inGroup with
      | false => rfl
      | true =>
        replace hout : (if s.inGroup then _ else _) = _ := hout
        rw [hgroup] at hout
        cases hout
    · rintro ⟨_, ⟨⟩, hgroup⟩
      refine ⟨s.current.branch.reverse, ?_⟩
      show (if s.inGroup then _ else _) = _
      rw [hgroup]
      rfl

end ParseAudit.Glob
