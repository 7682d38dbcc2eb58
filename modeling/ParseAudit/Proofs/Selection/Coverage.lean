import ParseAudit.Proofs.Selection.Compiled
/-!
# What a set of patterns covers

A pattern covers its matches and everything beneath them.  So whatever lies beneath a selected path
is selected unless it is excluded, and nothing beneath an excluded path is selected.  Patterns
without a mark cover a path by its name, and what lies beneath it.

* `PatternSet.covers_descend`: what a set selects and excludes beneath a path;
* `PatternSet.isMatch_iff_chooses`: the paths that patterns choose;
* `PatternSet.selects_plain_iff`: what a set of plain paths selects.
-/

namespace ParseAudit

open Glob

/-! ## Beneath what is covered -/

namespace PatternSet

/-- A pattern of a set that covers a path covers what lies beneath it. -/
theorem any_covers_beneath {patterns : List String} {base : String} {set : PatternSet}
    (h : compile patterns base = .ok set) {part : List SelectionPattern}
    (hpart : part ⊆ set.patterns) {path : String}
    (hpath : part.any (·.covers ⟨path⟩) = true) (rest : String) :
    part.any (·.covers ⟨path ++ "/" ++ rest⟩) = true := by
  rw [List.any_eq_true] at hpath ⊢
  obtain ⟨p, hp, hcovers⟩ := hpath
  obtain ⟨text, -, hready⟩ := (mem_patterns_iff h).1 (hpart hp)
  exact ⟨p, hp, SelectionPattern.covers_beneath hready hcovers rest⟩

/-- The patterns that select a path select what lies beneath it, and so do those that exclude it.
What lies beneath a selected path is selected unless it is excluded, and nothing beneath an excluded
path is selected. -/
theorem covers_descend {patterns : List String} {base : String} {set : PatternSet}
    (h : compile patterns base = .ok set) (path rest : String) :
    let beneath : RepoPath := ⟨path ++ "/" ++ rest⟩
    (set.includes.any (·.covers ⟨path⟩) = true → set.includes.any (·.covers beneath) = true) ∧
      (set.excludes.any (·.covers ⟨path⟩) = true → set.excludes.any (·.covers beneath) = true) ∧
      (set.isMatch ⟨path⟩ = true → set.excludes.any (·.covers beneath) = false →
        set.isMatch beneath = true) ∧
      (set.excludes.any (·.covers ⟨path⟩) = true → set.isMatch beneath = false) := by
  intro beneath
  have hincludes : set.includes.any (·.covers ⟨path⟩) = true →
      set.includes.any (·.covers beneath) = true := by
    intro hpath
    exact any_covers_beneath h (List.filter_subset_self _) hpath rest
  have hexcludes : set.excludes.any (·.covers ⟨path⟩) = true →
      set.excludes.any (·.covers beneath) = true := by
    intro hpath
    exact any_covers_beneath h (List.filter_subset_self _) hpath rest
  refine ⟨hincludes, hexcludes, ?_, ?_⟩
  · intro hselected hfree
    unfold isMatch at hselected ⊢
    rw [Bool.and_eq_true] at hselected
    rw [hincludes hselected.1, hfree]
    rfl
  · intro hexcluded
    unfold isMatch
    rw [hexcludes hexcluded, Bool.not_true, Bool.and_false]

/-- Wildcards, a class within nested groups, a `**`, and an exclusion seen from the base. -/
theorem covers_descend_mixed :
    let patterns := ["src/*", "\x7ba,\x7bb,[c-e]\x7d/**\x7d/g?", "!/w/src/[xy]*"]
    ∃ set, compile patterns "/w" = .ok set ∧
      (set.isMatch ⟨"src/k"⟩ = true ∧ set.isMatch ⟨"src/k/m"⟩ = true) ∧
      (set.includes.any (·.covers ⟨"d/f/g1"⟩) = true ∧
        set.includes.any (·.covers ⟨"d/f/g1/é"⟩) = true) ∧
      set.excludes.any (·.covers ⟨"src/x.c"⟩) = true ∧ set.isMatch ⟨"src/x.c/a"⟩ = false := by
  intro patterns
  have hevaluate : (compile patterns "/w").toOption.any (fun set =>
      set.isMatch ⟨"src/k"⟩ && !set.excludes.any (·.covers ⟨"src/k/m"⟩) &&
        set.includes.any (·.covers ⟨"d/f/g1"⟩) && set.excludes.any (·.covers ⟨"src/x.c"⟩)) =
      true := by
    decide +kernel
  cases hset : compile patterns "/w" with
  | error e =>
    rw [hset] at hevaluate
    cases hevaluate
  | ok set =>
    rw [hset] at hevaluate
    simp only [Except.toOption, Option.any_some, Bool.and_eq_true, Bool.not_eq_true'] at hevaluate
    obtain ⟨⟨⟨hselected, hfree⟩, hcovered⟩, hexcluded⟩ := hevaluate
    obtain ⟨-, -, hbeneath, -⟩ := covers_descend hset "src/k" "m"
    obtain ⟨hincluded, -, -, -⟩ := covers_descend hset "d/f/g1" "é"
    obtain ⟨-, -, -, hnever⟩ := covers_descend hset "src/x.c" "a"
    exact ⟨set, rfl, ⟨hselected, hbeneath hselected hfree⟩, ⟨hcovered, hincluded hcovered⟩,
      hexcluded, hnever hexcluded⟩

end PatternSet

/-! ## What patterns choose -/

/-- A glob pattern, as it stands, matches a path. -/
def Glob.MatchesPath (pattern path : String) : Prop :=
  ∃ g, Glob.compile pattern = .ok g ∧ g.isMatch path = true

namespace SelectionPattern

/-- A trimmed pattern picks a path: what it is normalized to matches the path or something that it
lies beneath.  The base directory itself stands for everything in it. -/
def Picks (text : List Char) (base : String) (q : RepoPath) : Prop :=
  (normalized text base).text = "." ∨ Glob.MatchesPath (normalized text base).text q.text ∨
    Glob.MatchesPath ((normalized text base).text ++ "/**") q.text

/-- A pattern that is ready covers what it picks. -/
theorem covers_iff_picks {text : List Char} {base : String} {p : SelectionPattern}
    (h : compile text base = .ok p) {q : RepoPath} : p.covers q = true ↔ Picks text base q := by
  have hmatches : ∀ {pattern ts}, Glob.tokens pattern.toList = .ok ts →
      (Glob.MatchesPath pattern q.text ↔ (Glob.Compiled.ofTokens ts).isMatch q.text = true) := by
    intro pattern ts hts
    unfold Glob.MatchesPath
    simp only [Glob.compile_eq_ok_iff_tokens, hts]
    constructor
    · rintro ⟨_, ⟨_, ⟨⟩, rfl⟩, hmatch⟩
      exact hmatch
    · exact fun hmatch => ⟨_, ⟨ts, rfl, rfl⟩, hmatch⟩
  obtain ⟨ts, tb, hts, htb, rfl⟩ := compile_eq_ok_iff.1 h
  unfold covers Picks
  rw [Bool.or_eq_true]
  by_cases hdot : (normalized text base).text = "."
  · rw [beneathOf, if_pos hdot] at htb
    cases htb.symm.trans Glob.tokens_doubleStar
    exact iff_of_true (.inr (Glob.Compiled.isMatch_everything _)) (.inl hdot)
  · rw [beneathOf, if_neg hdot] at htb
    rw [hmatches hts, hmatches htb]
    exact (or_iff_right hdot).symm

end SelectionPattern

namespace PatternSet

/-- Some pattern picks a path, and none that excludes does. -/
def Chooses (patterns : List String) (base : String) (q : RepoPath) : Prop :=
  (∃ text ∈ meaningful patterns, (SelectionPattern.splitMark text).1 = false ∧
      SelectionPattern.Picks text base q) ∧
    ¬∃ text ∈ meaningful patterns, (SelectionPattern.splitMark text).1 = true ∧
      SelectionPattern.Picks text base q

/-- A path is selected if some pattern covers it that selects, and none that excludes. -/
theorem isMatch_iff {set : PatternSet} {q : RepoPath} :
    set.isMatch q = true ↔
      (∃ p ∈ set.patterns, p.negated = false ∧ p.covers q = true) ∧
        ¬∃ p ∈ set.patterns, p.negated = true ∧ p.covers q = true := by
  have hincludes : set.includes.any (·.covers q) = true ↔
      ∃ p ∈ set.patterns, p.negated = false ∧ p.covers q = true := by
    unfold includes
    simp only [List.any_eq_true, List.mem_filter, Bool.not_eq_true', and_assoc]
  have hexcludes : set.excludes.any (·.covers q) = true ↔
      ∃ p ∈ set.patterns, p.negated = true ∧ p.covers q = true := by
    unfold excludes
    simp only [List.any_eq_true, List.mem_filter, and_assoc]
  unfold isMatch
  rw [Bool.and_eq_true, Bool.not_eq_true', hincludes, ← hexcludes, Bool.not_eq_true]

/-- A set selects the paths that its patterns choose. -/
theorem isMatch_iff_chooses {patterns : List String} {base : String} {set : PatternSet}
    (h : compile patterns base = .ok set) {q : RepoPath} :
    set.isMatch q = true ↔ Chooses patterns base q := by
  have hany : ∀ negated, (∃ p ∈ set.patterns, p.negated = negated ∧ p.covers q = true) ↔
      ∃ text ∈ meaningful patterns, (SelectionPattern.splitMark text).1 = negated ∧
        SelectionPattern.Picks text base q := by
    intro negated
    constructor
    · rintro ⟨p, hp, hnegated, hcovers⟩
      obtain ⟨text, htext, hready⟩ := (mem_patterns_iff h).1 hp
      exact ⟨text, htext, (SelectionPattern.negated_of_compile hready).symm.trans hnegated,
        (SelectionPattern.covers_iff_picks hready).1 hcovers⟩
    · rintro ⟨text, htext, hnegated, hpicks⟩
      obtain ⟨p, hready, -⟩ := exists_compile_iff.1 ⟨set, h⟩ text htext
      exact ⟨p, (mem_patterns_iff h).2 ⟨text, htext, hready⟩,
        (SelectionPattern.negated_of_compile hready).trans hnegated,
        (SelectionPattern.covers_iff_picks hready).2 hpicks⟩
  rw [isMatch_iff, hany, hany]
  rfl

end PatternSet

/-! ## Plain paths -/

/-- The characters that a plain path does without. -/
def Glob.reservedChars : List Char := ['*', '?', '[', ']', '{', '}']

/-- A pattern that is the text of a path, perhaps behind the mark of an exclusion. -/
structure PlainEntry where
  negated : Bool
  body : String
  nonempty : body.toList ≠ []
  trimmed : Chars.Trimmed body.toList
  head : body.toList.head? ≠ some '!' ∧ body.toList.head? ≠ some '#'
  plain : body.toList.any Glob.reservedChars.contains = false

namespace PlainEntry

/-- The pattern as it is written. -/
def pattern (e : PlainEntry) : String := if e.negated then "!" ++ e.body else e.body

/-- The path that the pattern names. -/
def path (e : PlainEntry) (base : String) : RepoPath := .normalize e.body base

/-- The paths that the pattern stands for: the one that it names, and what lies beneath it. -/
def Covers (e : PlainEntry) (base : String) (q : RepoPath) : Prop :=
  (e.path base).text = "." ∨ q = e.path base ∨
    ∃ rest : String, q.text = (e.path base).text ++ "/" ++ rest

theorem toList_pattern (e : PlainEntry) :
    e.pattern.toList = if e.negated then '!' :: e.body.toList else e.body.toList := by
  unfold pattern
  split
  · rw [String.toList_append]
    rfl
  · rfl

/-- A plain pattern says something, and what it says is its body. -/
theorem splitMark_pattern (e : PlainEntry) :
    Chars.trim e.pattern.toList = e.pattern.toList ∧
      SelectionPattern.saysNothing e.pattern.toList = false ∧
      SelectionPattern.splitMark e.pattern.toList = (e.negated, e.body.toList) := by
  obtain ⟨c, cs, hbody⟩ := List.exists_cons_of_ne_nil e.nonempty
  have htrimmed := e.trimmed
  have hhead := e.head
  rw [toList_pattern]
  rw [hbody] at htrimmed hhead ⊢
  cases e.negated with
  | true =>
    have hmarked : Chars.Trimmed ('!' :: c :: cs) := by
      refine ⟨?_, ?_⟩
      · rintro _ ⟨⟩
        rfl
      · rw [List.getLast?_cons_cons]
        exact htrimmed.last
    have htrim : Chars.trimStart (c :: cs) = c :: cs := Chars.trimStart_eq_self htrimmed.head
    refine ⟨hmarked.trim_eq, rfl, ?_⟩
    show (true, Chars.trimStart (c :: cs)) = _
    rw [htrim]
  | false =>
    refine ⟨htrimmed.trim_eq, ?_, ?_⟩
    · show (false || (c :: cs).head? == some '#') = false
      rw [beq_false_of_ne hhead.2]
      rfl
    · unfold SelectionPattern.splitMark
      split
      · next heq => exact absurd (congrArg List.head? heq) hhead.1
      · rfl

theorem meaningful_patterns (entries : List PlainEntry) :
    PatternSet.meaningful (entries.map pattern) = entries.map (·.pattern.toList) := by
  unfold PatternSet.meaningful
  rw [List.map_map, List.filter_eq_self.2]
  · exact List.map_congr_left fun e _ => (splitMark_pattern e).1
  · intro text htext
    obtain ⟨e, -, rfl⟩ := List.mem_map.1 htext
    obtain ⟨htrim, hsays, -⟩ := splitMark_pattern e
    show (!SelectionPattern.saysNothing (Chars.trim e.pattern.toList)) = true
    rw [htrim, hsays]
    rfl

theorem normalized_pattern (e : PlainEntry) (base : String) :
    SelectionPattern.normalized e.pattern.toList base = e.path base := by
  unfold SelectionPattern.normalized path
  rw [(splitMark_pattern e).2.2, String.ofList_toList]

/-- The path that a plain pattern names has no mark in its text. -/
theorem not_mem_markChars (e : PlainEntry) (base : String) :
    ∀ c ∈ (e.path base).text.toList, c ∉ State.markChars := by
  intro c hc hmark
  have hsplit : ∀ d ∈ State.markChars, d = '\\' ∨ d ∈ reservedChars := by
    simp [State.markChars, reservedChars]
  rcases hsplit c hmark with rfl | hreserved
  · exact RepoPath.not_mem_normalize hc
  · rcases RepoPath.mem_toList_normalize hc with hput | hbody
    · revert hreserved
      have hdisjoint : ∀ d ∈ ['/', '.', ':'], d ∉ reservedChars := by
        simp [reservedChars]
      exact hdisjoint c hput
    · have hplain := List.any_eq_false.1 e.plain c hbody
      exact hplain (List.contains_iff_mem.2 hreserved)

/-- A plain pattern is read as plain text, and as plain text with something beneath it. -/
theorem exists_compile (e : PlainEntry) (base : String) :
    let text := (e.path base).text.toList.map Token.literal
    ∃ tb, SelectionPattern.compile e.pattern.toList base =
        .ok ⟨e.negated, .ofTokens text, .ofTokens tb⟩ ∧
      ((e.path base).text = "." ∧ tb = [.recursiveStart] ∨
        (e.path base).text ≠ "." ∧ tb = text ++ [.recursiveEnd]) := by
  intro text
  have hts : tokens (e.path base).text.toList = .ok text :=
    tokens_plain (not_mem_markChars e base)
  obtain ⟨tb, htb, hcases⟩ := SelectionPattern.exists_tokens_beneathOf hts
  refine ⟨tb, SelectionPattern.compile_eq_ok_iff.2 ⟨text, tb, ?_, ?_, ?_⟩, ?_⟩
  · rw [normalized_pattern]
    exact hts
  · rw [normalized_pattern]
    exact htb
  · rw [(splitMark_pattern e).2.2]
  · rcases hcases with hdot | ⟨hdot, ⟨hadded, -⟩ | ⟨-, hasks⟩⟩
    · exact .inl hdot
    · exact .inr ⟨hdot, hadded⟩
    · exact absurd hasks (not_asksBeneath_literals _)

theorem nestingAll_literals (text : List Char) (tail : List Token) :
    Token.nestingAll (text.map .literal ++ tail) = Token.nestingAll tail := by
  induction text with
  | nil => rfl
  | cons c cs ih =>
    rw [List.map_cons, List.cons_append, Token.nestingAll, ih, Token.nesting, Nat.zero_max]

/-- A plain pattern never nests too deep. -/
theorem fits_of_compile (e : PlainEntry) {base : String} {p : SelectionPattern}
    (h : SelectionPattern.compile e.pattern.toList base = .ok p) :
    FitsSet p.itself.tokens ∧ FitsSet p.beneath.tokens := by
  have hfits : ∀ {text : List Char} {tail : List Token}, Token.nestingAll tail < maxNesting →
      FitsSet (text.map .literal ++ tail) := by
    intro text tail htail _
    unfold nestsTooDeep
    rw [nestingAll_literals, decide_eq_false_iff_not]
    omega
  obtain ⟨tb, hready, hcases⟩ := exists_compile e base
  cases hready.symm.trans h
  constructor
  · have htext := @hfits (e.path base).text.toList [] (by cbv)
    rwa [List.append_nil] at htext
  · rcases hcases with ⟨-, rfl⟩ | ⟨-, rfl⟩
    · exact @hfits [] [.recursiveStart] (by cbv)
    · exact @hfits (e.path base).text.toList [.recursiveEnd] (by cbv)

/-- A plain pattern covers what it stands for. -/
theorem covers_iff (e : PlainEntry) {base : String} {p : SelectionPattern}
    (h : SelectionPattern.compile e.pattern.toList base = .ok p) (q : RepoPath) :
    p.covers q = true ↔ e.Covers base q := by
  obtain ⟨tb, hready, hcases⟩ := exists_compile e base
  cases hready.symm.trans h
  have hitself : (Compiled.ofTokens ((e.path base).text.toList.map .literal)).isMatch q.text =
      true ↔ q = e.path base := by
    rw [Compiled.isMatch_plain_iff]
    exact ⟨fun heq => congrArg RepoPath.mk heq, congrArg RepoPath.text⟩
  unfold SelectionPattern.covers Covers
  rw [Bool.or_eq_true, hitself]
  rcases hcases with ⟨hdot, rfl⟩ | ⟨hdot, rfl⟩
  · exact iff_of_true (.inr (Compiled.isMatch_everything _)) (.inl hdot)
  · have hbeneath : (∃ u v, Octets.ofText q.text = u ++ OctetClass.slash :: v ∧
          Regular.Matches (Token.regularAll ((e.path base).text.toList.map .literal)) u) ↔
        ∃ rest : String, q.text = (e.path base).text ++ "/" ++ rest := by
      rw [← Octets.exists_behind_slash_iff]
      simp only [Token.matches_literals_iff]
      constructor
      · rintro ⟨_, v, hq, rfl⟩
        exact ⟨v, hq⟩
      · rintro ⟨v, hq⟩
        exact ⟨_, v, hq, rfl⟩
    rw [Compiled.isMatch_beneath_iff, hbeneath]
    exact (or_iff_right hdot).symm

theorem picks_iff (e : PlainEntry) (base : String) (q : RepoPath) :
    SelectionPattern.Picks e.pattern.toList base q ↔ e.Covers base q := by
  obtain ⟨tb, hready, -⟩ := e.exists_compile base
  rw [← SelectionPattern.covers_iff_picks hready, e.covers_iff hready]

/-- A name that goes on within the last segment is another one. -/
theorem not_covers_longer (e : PlainEntry) {base : String} (hdot : (e.path base).text ≠ ".")
    {c : Char} (hc : c ≠ '/') (rest : List Char) :
    ¬e.Covers base ⟨String.ofList ((e.path base).text.toList ++ c :: rest)⟩ := by
  rintro (h | h | ⟨more, h⟩)
  · exact hdot h
  · have hchars := congrArg (fun q => q.text.toList.length) h
    simp at hchars
  · have hchars := congrArg String.toList h
    rw [String.toList_ofList, String.toList_append, String.toList_append,
      List.append_assoc] at hchars
    have hhead := (List.cons.inj (List.append_cancel_left hchars)).1
    exact hc hhead

end PlainEntry

/-- Plain patterns always make a set.  It selects a path if some pattern selects it or something
that it lies beneath, and none excludes it or something that it lies beneath; a name that is only
longer than that of a pattern is neither selected by the pattern nor excluded. -/
theorem PatternSet.selects_plain_iff (entries : List PlainEntry) (base : String) :
    ∃ set, PatternSet.compile (entries.map PlainEntry.pattern) base = .ok set ∧
      (∀ q, set.isMatch q = true ↔
        (∃ e ∈ entries, e.negated = false ∧ e.Covers base q) ∧
          ¬∃ e ∈ entries, e.negated = true ∧ e.Covers base q) ∧
      ∀ e ∈ entries, (e.path base).text ≠ "." → ∀ c ≠ '/', ∀ rest : List Char,
        ¬e.Covers base ⟨String.ofList ((e.path base).text.toList ++ c :: rest)⟩ := by
  have hset : ∃ set, PatternSet.compile (entries.map PlainEntry.pattern) base = .ok set := by
    rw [PatternSet.exists_compile_iff, PlainEntry.meaningful_patterns, List.forall_mem_map]
    intro e _
    obtain ⟨tb, hready, -⟩ := e.exists_compile base
    exact ⟨_, hready, e.fits_of_compile hready⟩
  obtain ⟨set, hset⟩ := hset
  refine ⟨set, hset, fun q => ?_, fun e _ hdot c hc rest => e.not_covers_longer hdot hc rest⟩
  have hany : ∀ negated, (∃ text ∈ PatternSet.meaningful (entries.map PlainEntry.pattern),
        (SelectionPattern.splitMark text).1 = negated ∧ SelectionPattern.Picks text base q) ↔
      ∃ e ∈ entries, e.negated = negated ∧ e.Covers base q := by
    intro negated
    rw [PlainEntry.meaningful_patterns]
    simp only [List.mem_map, exists_exists_and_eq_and, PlainEntry.splitMark_pattern,
      PlainEntry.picks_iff]
  rw [isMatch_iff_chooses hset]
  unfold Chooses
  rw [hany, hany]

/-- A directory with a backslash in its name as it is written, and a file in it that is excluded. -/
theorem PatternSet.selects_plain_pair :
    ∃ set, PatternSet.compile ["src\\lib,a", "!/w/./src/lib,a/x"] "/w" = .ok set ∧
      set.isMatch ⟨"src/lib,a/é"⟩ = true ∧ set.isMatch ⟨"src/lib,a/x/y"⟩ = false := by
  let source : PlainEntry := ⟨false, "src\\lib,a", by decide +kernel,
    Chars.trimmed_iff.2 (by decide +kernel), by decide +kernel, by decide +kernel⟩
  let left : PlainEntry := ⟨true, "/w/./src/lib,a/x", by decide +kernel,
    Chars.trimmed_iff.2 (by decide +kernel), by decide +kernel, by decide +kernel⟩
  obtain ⟨set, hset, hmatch, -⟩ := PatternSet.selects_plain_iff [source, left] "/w"
  have hsource : source.path "/w" = ⟨"src/lib,a"⟩ := by decide +kernel
  have hleft : left.path "/w" = ⟨"src/lib,a/x"⟩ := by decide +kernel
  refine ⟨set, hset, (hmatch _).2 ⟨⟨source, by simp, rfl, .inr (.inr ⟨"é", ?_⟩)⟩, ?_⟩, ?_⟩
  · rw [hsource]
    rfl
  · rintro ⟨e, he, hnegated, hcovers⟩
    rcases List.mem_pair.1 he with rfl | rfl
    · cases hnegated
    · unfold PlainEntry.Covers at hcovers
      rw [hleft] at hcovers
      rcases hcovers with h | h | ⟨rest, h⟩
      · revert h; decide
      · revert h; decide
      · have hfirst := congrArg (fun text => text.toList[10]?) h
        simp at hfirst
  · rw [← Bool.not_eq_true, hmatch]
    refine fun h => h.2 ⟨left, by simp, rfl, .inr (.inr ⟨"y", ?_⟩)⟩
    rw [hleft]
    rfl

end ParseAudit
