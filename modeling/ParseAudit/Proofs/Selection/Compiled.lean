import ParseAudit.Proofs.Glob.Meaning
import ParseAudit.Proofs.Settings.Patterns
/-!
# Sets of patterns that are ready

A set is made of the patterns that say something, each of them ready by itself.  It can be made if
each of them can be read and none nests too deep; their order and their number do not matter.

* `SelectionPattern.compile_eq_ok_iff`: the tokens of a pattern that is ready;
* `SelectionPattern.exists_tokens_beneathOf`: the tokens for everything beneath its matches;
* `SelectionPattern.covers_beneath`: what lies beneath something covered is covered;
* `PatternSet.compile_eq_ok_iff`, `PatternSet.exists_compile_iff`: the sets that can be made.
-/

namespace ParseAudit

open Glob

/-! ## Tokens -/

theorem Glob.compile_eq_ok_iff_tokens {pattern : String} {g : Compiled} :
    Glob.compile pattern = .ok g ↔ ∃ ts, tokens pattern.toList = .ok ts ∧ g = .ofTokens ts := by
  unfold Glob.compile parse
  cases tokens pattern.toList with
  | error fault => exact iff_of_false nofun fun ⟨_, h, _⟩ => nomatch h
  | ok ts =>
    constructor
    · intro h
      cases h
      exact ⟨ts, rfl, rfl⟩
    · rintro ⟨_, ⟨⟩, rfl⟩
      rfl

theorem Except.within_eq_ok_iff {ε α : Type} {context : String} {toCause : ε → Cause}
    {x : Except ε α} {a : α} : Except.within context toCause x = .ok a ↔ x = .ok a := by
  cases x with
  | error e => exact iff_of_false nofun nofun
  | ok b =>
    show Except.ok b = Except.ok a ↔ _
    rw [Except.ok.injEq, Except.ok.injEq]

namespace RepoPath

open Anchored

/-- The text of a path ends in a slash only if it is a root directory. -/
theorem getLast?_normalize (text base : String) :
    (normalize text base).text.toList.getLast? ≠ some '/' ∨
      ∀ c ∈ (normalize text base).text.toList, c ∉ State.markChars := by
  have hproper := (proper_ofChars text.toList).seenFrom (ofChars base.toList)
  rw [toList_normalize]
  by_cases hnil : ((ofChars text.toList).seenFrom (ofChars base.toList)).segments = []
  · right
    intro c hc hmark
    rcases mem_toChars hc with hput | ⟨segment, hsegment, -⟩ | hdrive
    · revert hmark
      have hdisjoint : ∀ d ∈ ['/', '.', ':'], d ∉ State.markChars := by
        simp [State.markChars]
      exact hdisjoint c hput
    · rw [hnil] at hsegment
      cases hsegment
    · have halpha := hproper.letter c hdrive
      have hno : State.markChars.any Char.isAlpha = false := by decide +kernel
      exact List.any_eq_false.1 hno c hmark halpha
  · exact .inl (hproper.getLast?_toChars hnil)

end RepoPath

namespace SelectionPattern

/-- A pattern is ready when its tokens are read, and those for everything beneath its matches. -/
theorem compile_eq_ok_iff {text : List Char} {base : String} {p : SelectionPattern} :
    compile text base = .ok p ↔ ∃ ts tb,
      tokens (normalized text base).text.toList = .ok ts ∧
      tokens (beneathOf (normalized text base)).toList = .ok tb ∧
      p = ⟨(splitMark text).1, .ofTokens ts, .ofTokens tb⟩ := by
  rw [compile_eq, Action.bind_eq_ok_iff]
  simp only [Action.bind_eq_ok_iff, Except.within_eq_ok_iff, compile_eq_ok_iff_tokens]
  constructor
  · rintro ⟨_, ⟨ts, hts, rfl⟩, _, ⟨tb, htb, rfl⟩, h⟩
    exact ⟨ts, tb, hts, htb, (Except.ok.inj h).symm⟩
  · rintro ⟨ts, tb, hts, htb, rfl⟩
    exact ⟨_, ⟨ts, hts, rfl⟩, _, ⟨tb, htb, rfl⟩, rfl⟩

theorem negated_of_compile {text : List Char} {base : String} {p : SelectionPattern}
    (h : compile text base = .ok p) : p.negated = (splitMark text).1 := by
  obtain ⟨ts, tb, -, -, rfl⟩ := compile_eq_ok_iff.1 h
  rfl

/-- The tokens for everything beneath the matches of a normalized pattern. -/
theorem exists_tokens_beneathOf {text base : String} {ts : List Token}
    (hts : tokens (RepoPath.normalize text base).text.toList = .ok ts) :
    ∃ tb, tokens (beneathOf (.normalize text base)).toList = .ok tb ∧
      ((RepoPath.normalize text base).text = "." ∧ tb = [.recursiveStart] ∨
        (RepoPath.normalize text base).text ≠ "." ∧
          (tb = ts ++ [.recursiveEnd] ∧ ts ≠ [.recursiveStart] ∨ tb = ts ∧ AsksBeneath ts)) := by
  unfold beneathOf
  by_cases hdot : (RepoPath.normalize text base).text = "."
  · refine ⟨[.recursiveStart], ?_, .inl ⟨hdot, rfl⟩⟩
    rw [if_pos hdot]
    exact tokens_doubleStar
  have hlast : ts = [.recursiveStart] →
      (RepoPath.normalize text base).text.toList.getLast? ≠ some '/' := by
    intro hstart
    rcases RepoPath.getLast?_normalize text base with hlast | hplain
    · exact hlast
    · rw [tokens_plain hplain, hstart] at hts
      exact absurd (Except.ok.inj hts) (map_literal_ne_recursiveStart _)
  rw [if_neg hdot, String.toList_append]
  rcases tokens_beneath hts hlast with ⟨hadded, hne⟩ | ⟨hsame, hasks⟩
  · exact ⟨_, hadded, .inr ⟨hdot, .inl ⟨rfl, hne⟩⟩⟩
  · exact ⟨_, hsame, .inr ⟨hdot, .inr ⟨rfl, hasks⟩⟩⟩

/-- Everything beneath what a pattern covers is covered, as what lies beneath its matches. -/
theorem covers_beneath {text : List Char} {base : String} {p : SelectionPattern}
    (h : compile text base = .ok p) {path : String} (hpath : p.covers ⟨path⟩ = true)
    (rest : String) : p.covers ⟨path ++ "/" ++ rest⟩ = true := by
  obtain ⟨ts, tb, hts, htb, rfl⟩ := compile_eq_ok_iff.1 h
  obtain ⟨_, htb', hcases⟩ := exists_tokens_beneathOf hts
  cases htb'.symm.trans htb
  unfold covers at hpath ⊢
  rw [Bool.or_eq_true] at hpath ⊢
  right
  dsimp only at hpath ⊢
  rcases hcases with ⟨-, rfl⟩ | ⟨-, ⟨rfl, hne⟩ | ⟨rfl, hasks⟩⟩
  · exact Compiled.isMatch_everything _
  · rcases hpath with hitself | hbeneath
    · exact Compiled.isMatch_beneath hne hitself rest
    · exact Compiled.isMatch_descend (.inr ⟨ts, rfl⟩) hbeneath rest
  · rw [or_self] at hpath
    exact Compiled.isMatch_descend hasks hpath rest

end SelectionPattern

/-! ## Sets -/

/-- Whether the expression for a pattern, if it needs one in a set, is not too deep for it. -/
def Glob.FitsSet (ts : List Token) : Prop :=
  Strategy.ofTokens ts = .extension ∨ Strategy.ofTokens ts = .expression → nestsTooDeep ts = false

theorem Glob.checkNesting_eq_ok_iff {patterns : List (List Token)} :
    Glob.checkNesting patterns = .ok () ↔ ∀ ts ∈ patterns, FitsSet ts := by
  have hnone : ∀ strategy, (∀ ts ∈ matchedBy strategy patterns, nestsTooDeep ts = false) ↔
      ∀ ts ∈ patterns, Strategy.ofTokens ts = strategy → nestsTooDeep ts = false := by
    intro strategy
    unfold matchedBy
    simp only [List.mem_filter, beq_iff_eq, and_imp]
  have hboth : (∀ ts ∈ patterns, FitsSet ts) ↔
      (∀ ts ∈ matchedBy .extension patterns, nestsTooDeep ts = false) ∧
        ∀ ts ∈ matchedBy .expression patterns, nestsTooDeep ts = false := by
    unfold FitsSet
    rw [hnone, hnone]
    simp only [or_imp, forall_and]
  rw [hboth]
  unfold Glob.checkNesting
  cases hextension : (matchedBy .extension patterns).find? nestsTooDeep with
  | some ts =>
    refine iff_of_false nofun fun h => ?_
    have hdeep := List.find?_some hextension
    rw [h.1 ts (List.mem_of_find?_eq_some hextension)] at hdeep
    cases hdeep
  | none =>
    have hall : ∀ ts ∈ matchedBy .extension patterns, nestsTooDeep ts = false := by
      simpa using hextension
    dsimp only
    cases hexpression : (matchedBy .expression patterns).findIdx? nestsTooDeep with
    | none =>
      rw [List.findIdx?_eq_none_iff] at hexpression
      exact iff_of_true rfl ⟨hall, hexpression⟩
    | some place =>
      refine iff_of_false nofun fun h => ?_
      rw [List.findIdx?_eq_none_iff.2 h.2] at hexpression
      cases hexpression

namespace PatternSet

theorem checkNesting_eq_ok_iff {context : String} {patterns : List SelectionPattern} :
    checkNesting context patterns = .ok () ↔
      ∀ p ∈ patterns, FitsSet p.itself.tokens ∧ FitsSet p.beneath.tokens := by
  unfold checkNesting
  rw [Except.within_eq_ok_iff, Glob.checkNesting_eq_ok_iff]
  simp only [List.mem_flatMap, List.mem_cons, List.not_mem_nil, or_false, forall_exists_index,
    and_imp]
  constructor
  · intro h p hp
    exact ⟨h _ p hp (.inl rfl), h _ p hp (.inr rfl)⟩
  · rintro h ts p hp (rfl | rfl)
    · exact (h p hp).1
    · exact (h p hp).2

/-- A set is made of patterns that are ready and nest no deeper than a set may. -/
theorem compile_eq_ok_iff {patterns : List String} {base : String} {set : PatternSet} :
    compile patterns base = .ok set ↔
      (meaningful patterns).mapM (SelectionPattern.compile · base) = .ok set.patterns ∧
        ∀ p ∈ set.patterns, FitsSet p.itself.tokens ∧ FitsSet p.beneath.tokens := by
  have hcompile : compile patterns base = (do
      let found ← (meaningful patterns).mapM (SelectionPattern.compile · base)
      let set : PatternSet := ⟨found⟩
      checkNesting "compile include globset" set.includes
      checkNesting "compile exclude globset" set.excludes
      return set) := rfl
  rw [hcompile]
  simp only [Action.bind_eq_ok_iff]
  unfold includes excludes
  constructor
  · rintro ⟨found, hfound, ⟨⟩, hincludes, ⟨⟩, hexcludes, ⟨⟩⟩
    rw [checkNesting_eq_ok_iff] at hincludes hexcludes
    refine ⟨hfound, fun p hp => ?_⟩
    cases hnegated : p.negated with
    | false => exact hincludes p (List.mem_filter.2 ⟨hp, by rw [hnegated]; rfl⟩)
    | true => exact hexcludes p (List.mem_filter.2 ⟨hp, hnegated⟩)
  · rintro ⟨hfound, hall⟩
    refine ⟨set.patterns, hfound, (), ?_, (), ?_, rfl⟩
    · exact checkNesting_eq_ok_iff.2 fun p hp => hall p (List.mem_of_mem_filter hp)
    · exact checkNesting_eq_ok_iff.2 fun p hp => hall p (List.mem_of_mem_filter hp)

/-- The patterns of a set are those that say something, made ready. -/
theorem mem_patterns_iff {patterns : List String} {base : String} {set : PatternSet}
    (h : compile patterns base = .ok set) {p : SelectionPattern} :
    p ∈ set.patterns ↔
      ∃ text ∈ meaningful patterns, SelectionPattern.compile text base = .ok p :=
  Action.mem_mapM_iff (compile_eq_ok_iff.1 h).1

/-- A set can be made if each pattern can be made ready and is not too deep for a set. -/
theorem exists_compile_iff {patterns : List String} {base : String} :
    (∃ set, compile patterns base = .ok set) ↔
      ∀ text ∈ meaningful patterns, ∃ p, SelectionPattern.compile text base = .ok p ∧
        FitsSet p.itself.tokens ∧ FitsSet p.beneath.tokens := by
  constructor
  · rintro ⟨set, hset⟩ text htext
    obtain ⟨hfound, hfits⟩ := compile_eq_ok_iff.1 hset
    obtain ⟨p, hp⟩ := Action.exists_mapM_iff.1 ⟨_, hfound⟩ text htext
    exact ⟨p, hp, hfits p ((mem_patterns_iff hset).2 ⟨text, htext, hp⟩)⟩
  · intro hall
    obtain ⟨found, hfound⟩ := Action.exists_mapM_iff.2 fun text htext =>
      (hall text htext).imp fun _ => And.left
    refine ⟨⟨found⟩, compile_eq_ok_iff.2 ⟨hfound, fun p hp => ?_⟩⟩
    obtain ⟨text, htext, hp⟩ := (Action.mem_mapM_iff hfound).1 hp
    obtain ⟨q, hq, hfits⟩ := hall text htext
    rw [hp] at hq
    cases hq
    exact hfits

end PatternSet

end ParseAudit
