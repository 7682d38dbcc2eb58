import ParseAudit.Proofs.Action
import ParseAudit.Proofs.Glob.Normalized
import ParseAudit.Proofs.Text.Trimmed
import ParseAudit.Selection.PatternSet
import ParseAudit.Settings.Resolve
/-!
# Patterns in settings and in sets

The patterns of the settings are checked as they are written; a set of patterns is made from what
they are normalized to, and leaves comments out.  Both accept the same patterns as long as these are
ordinary ones.

* `Settings.checkPatterns_eq_ok_iff`, `PatternSet.accepts_iff`: what each of them accepts;
* `Settings.checkPatterns_iff_accepts`: ordinary patterns are accepted by both or by none;
* `Settings.checkPatterns_differ`: comments, patterns with a `\`, slashes within a class, and base
  directories with brackets in their names, where they differ.
-/

namespace ParseAudit

open Glob Glob.Position

/-! ## One pattern -/

/-- Blanks mean nothing to a walk. -/
theorem Glob.not_isMeta_of_isBlank {c : Char} (h : isBlank c = true) : isMeta c = false := by
  by_contra hmeta
  simp only [isMeta, Bool.not_eq_false, Bool.or_eq_true, beq_iff_eq] at hmeta
  rcases hmeta with ((rfl | rfl) | rfl) | rfl <;> cases h

theorem Glob.parse_eq_ok_iff {pattern : String} :
    (∃ ts, parse pattern = .ok ts) ↔ start.Accepts pattern.toList := by
  rw [← tokens_eq_ok_iff]
  unfold parse
  cases tokens pattern.toList with
  | ok ts => exact iff_of_true ⟨ts, rfl⟩ ⟨ts, rfl⟩
  | error fault => exact iff_of_false (fun ⟨_, h⟩ => nomatch h) (fun ⟨_, h⟩ => nomatch h)

theorem Glob.compile_eq_ok_iff {pattern : String} :
    (∃ g, compile pattern = .ok g) ↔ start.Accepts pattern.toList := by
  rw [← parse_eq_ok_iff]
  unfold compile
  cases parse pattern with
  | ok ts => exact iff_of_true ⟨_, rfl⟩ ⟨ts, rfl⟩
  | error e => exact iff_of_false (fun ⟨_, h⟩ => nomatch h) (fun ⟨_, h⟩ => nomatch h)

namespace Settings

theorem checkPattern_eq_ok_iff {pattern : String} :
    checkPattern pattern = .ok () ↔ start.Accepts (bodyOf pattern).toList := by
  rw [← parse_eq_ok_iff]
  unfold checkPattern
  cases parse (bodyOf pattern) with
  | ok ts => exact iff_of_true rfl ⟨ts, rfl⟩
  | error e => exact iff_of_false nofun (fun ⟨_, h⟩ => nomatch h)

/-- The settings accept patterns if each of them is without a fault as it is written. -/
theorem checkPatterns_eq_ok_iff {patterns : List String} :
    checkPatterns patterns = .ok () ↔
      ∀ pattern ∈ patterns, start.Accepts (bodyOf pattern).toList := by
  induction patterns with
  | nil => exact iff_of_true rfl nofun
  | cons pattern patterns ih =>
    show (checkPattern pattern >>= fun _ => checkPatterns patterns) = _ ↔ _
    rw [Action.bind_eq_ok_iff, List.forall_mem_cons, ← ih, ← checkPattern_eq_ok_iff]
    exact ⟨fun ⟨_, h, h'⟩ => ⟨h, h'⟩, fun ⟨h, h'⟩ => ⟨(), h, h'⟩⟩

end Settings

namespace SelectionPattern

/-- What a trimmed pattern is normalized to. -/
def normalized (text : List Char) (base : String) : RepoPath :=
  .normalize (String.ofList (splitMark text).2) base

/-- Everything beneath the matches of a pattern is a pattern too. -/
theorem accepts_beneathOf {pattern : RepoPath} (h : start.Accepts pattern.text.toList) :
    start.Accepts (beneathOf pattern).toList := by
  unfold beneathOf
  split
  · decide +kernel
  · unfold Accepts
    rw [String.toList_append, walk_append, h, Option.bind_some]
    decide +kernel

/-- A pattern is made ready twice over: for its matches, and for everything beneath them. -/
theorem compile_eq (text : List Char) (base : String) :
    compile text base = do
      let context := "invalid glob pattern: " ++ String.ofList text
      let itself ← Except.within context .glob (Glob.compile (normalized text base).text)
      let beneath ← Except.within context .glob (Glob.compile (beneathOf (normalized text base)))
      return ⟨(splitMark text).1, itself, beneath⟩ :=
  rfl

/-- A pattern is made ready if what it is normalized to is without a fault. -/
theorem compile_cases (text : List Char) (base : String) :
    (∃ p, compile text base = .ok p) ∧ start.Accepts (normalized text base).text.toList ∨
      (∃ context e, compile text base = .error ⟨[context], .glob e⟩) ∧
        ¬start.Accepts (normalized text base).text.toList := by
  rw [compile_eq]
  by_cases h : start.Accepts (normalized text base).text.toList
  · obtain ⟨itself, hitself⟩ := Glob.compile_eq_ok_iff.2 h
    obtain ⟨beneath, hbeneath⟩ := Glob.compile_eq_ok_iff.2 (accepts_beneathOf h)
    rw [hitself, hbeneath]
    exact .inl ⟨⟨_, rfl⟩, h⟩
  · cases hitself : Glob.compile (normalized text base).text with
    | ok itself => exact absurd (Glob.compile_eq_ok_iff.1 ⟨itself, hitself⟩) h
    | error e => exact .inr ⟨⟨_, e, rfl⟩, h⟩

end SelectionPattern

namespace PatternSet

/-- Patterns are made ready one by one, up to the first that is at fault. -/
theorem mapM_compile_cases (texts : List (List Char)) (base : String) :
    (∃ found, texts.mapM (SelectionPattern.compile · base) = .ok found) ∧
        (∀ text ∈ texts, start.Accepts (SelectionPattern.normalized text base).text.toList) ∨
      (∃ context e, texts.mapM (SelectionPattern.compile · base) = .error ⟨[context], .glob e⟩) ∧
        ∃ text ∈ texts, ¬start.Accepts (SelectionPattern.normalized text base).text.toList := by
  induction texts with
  | nil => exact .inl ⟨⟨[], rfl⟩, nofun⟩
  | cons text texts ih =>
    rw [List.mapM_cons]
    rcases SelectionPattern.compile_cases text base with
      ⟨⟨p, hp⟩, haccepts⟩ | ⟨⟨context, e, herror⟩, hfault⟩
    · rw [hp]
      rcases ih with ⟨⟨found, hfound⟩, hall⟩ | ⟨⟨context, e, herror⟩, other, hother, hfault⟩
      · rw [hfound]
        exact .inl ⟨⟨p :: found, rfl⟩, List.forall_mem_cons.2 ⟨haccepts, hall⟩⟩
      · rw [herror]
        exact .inr ⟨⟨context, e, rfl⟩, other, List.mem_cons_of_mem text hother, hfault⟩
    · rw [herror]
      exact .inr ⟨⟨context, e, rfl⟩, text, List.mem_cons_self, hfault⟩

theorem checkNesting_cases (context : String) (patterns : List SelectionPattern) :
    checkNesting context patterns = .ok () ∨
      ∃ e, checkNesting context patterns = .error ⟨[context], .globSet e⟩ := by
  unfold checkNesting
  cases Glob.checkNesting (patterns.flatMap fun p => [p.itself.tokens, p.beneath.tokens]) with
  | ok _ => exact .inl rfl
  | error e => exact .inr ⟨e, rfl⟩

/-- Every pattern is without a fault: a set is made from them, unless some nest too deep. -/
def Accepts (patterns : List String) (base : String) : Prop :=
  (∃ set, compile patterns base = .ok set) ∨
    ∃ context e, compile patterns base = .error ⟨[context], .globSet e⟩

/-- A set accepts patterns if what the meaningful ones are normalized to is without a fault. -/
theorem accepts_iff {patterns : List String} {base : String} :
    Accepts patterns base ↔ ∀ text ∈ meaningful patterns,
      start.Accepts (SelectionPattern.normalized text base).text.toList := by
  unfold Accepts compile
  rcases mapM_compile_cases (meaningful patterns) base with
    ⟨⟨found, hfound⟩, hall⟩ | ⟨⟨context, e, herror⟩, text, htext, hfault⟩
  · rw [hfound]
    refine iff_of_true ?_ hall
    show (∃ set, (checkNesting _ (includes ⟨found⟩) >>= fun _ => _) = _) ∨
      ∃ context e, (checkNesting _ (includes ⟨found⟩) >>= fun _ => _) = _
    rcases checkNesting_cases "compile include globset" (includes ⟨found⟩) with
      hincludes | ⟨e, hincludes⟩
    · rcases checkNesting_cases "compile exclude globset" (excludes ⟨found⟩) with
        hexcludes | ⟨e, hexcludes⟩
      · rw [hincludes, hexcludes]
        exact .inl ⟨⟨found⟩, rfl⟩
      · rw [hincludes, hexcludes]
        exact .inr ⟨_, e, rfl⟩
    · rw [hincludes]
      exact .inr ⟨_, e, rfl⟩
  · rw [herror]
    refine iff_of_false ?_ fun hall => hfault (hall text htext)
    rintro (⟨set, ⟨⟩⟩ | ⟨context', e', ⟨⟩⟩)

end PatternSet

/-! ## Ordinary patterns -/

namespace Settings

/-- A pattern that is no comment, that holds no `\`, and whose slashes stand outside of classes. -/
structure IsOrdinary (pattern : String) : Prop where
  start : pattern.toList.head? ≠ some '#'
  escape : '\\' ∉ pattern.toList
  slashes : Position.start.slashesOutside (bodyOf pattern).toList = true

theorem isOrdinary_iff {pattern : String} :
    IsOrdinary pattern ↔ pattern.toList.head? ≠ some '#' ∧ '\\' ∉ pattern.toList ∧
      Position.start.slashesOutside (bodyOf pattern).toList = true :=
  ⟨fun h => ⟨h.start, h.escape, h.slashes⟩, fun h => ⟨h.1, h.2.1, h.2.2⟩⟩

instance (pattern : String) : Decidable (IsOrdinary pattern) :=
  decidable_of_iff' _ isOrdinary_iff

/-- The body of a pattern that excludes, and of one that does not. -/
theorem bodyOf_cases (pattern : String) :
    (∃ body, pattern.toList = '!' :: body ∧ (bodyOf pattern).toList = body ∧
        SelectionPattern.splitMark pattern.toList = (true, Chars.trimStart body)) ∨
      (bodyOf pattern).toList = pattern.toList ∧
        SelectionPattern.splitMark pattern.toList = (false, pattern.toList) := by
  have hmark : "!".toList = ['!'] := rfl
  unfold bodyOf Text.stripStart? Chars.stripStart?
  rw [hmark]
  split
  · next hinitial =>
    obtain ⟨body, hbody⟩ := List.isPrefixOf_iff_prefix.1 hinitial
    rw [← hbody]
    exact .inl ⟨body, rfl, by simp, rfl⟩
  · next hinitial =>
    refine .inr ⟨rfl, ?_⟩
    unfold SelectionPattern.splitMark
    split
    · next body hpattern =>
      rw [hpattern] at hinitial
      exact absurd (List.isPrefixOf_iff_prefix.2 (List.prefix_append ['!'] body)) hinitial
    · rfl

/-- The body of a pattern in the settings is its body in a set, with perhaps some blanks in front,
and the pattern ends in it. -/
theorem exists_bodyOf (pattern : String) :
    ∃ blanks, Chars.AllBlank blanks ∧
      (bodyOf pattern).toList =
        blanks ++ (SelectionPattern.splitMark pattern.toList).2 ∧
      (bodyOf pattern).toList <:+ pattern.toList := by
  rcases bodyOf_cases pattern with ⟨body, hpattern, hbody, hmark⟩ | ⟨hbody, hmark⟩
  · obtain ⟨blanks, hblanks, htrim⟩ := Chars.exists_trimStart body
    rw [hbody, hmark, hpattern]
    exact ⟨blanks, hblanks, htrim, List.suffix_cons '!' body⟩
  · rw [hbody, hmark]
    exact ⟨[], Chars.allBlank_nil, rfl, List.suffix_refl _⟩

/-- Ordinary patterns, from a base directory without brackets in its name, are accepted by the
settings if and only if they are accepted by a set. -/
theorem checkPatterns_iff_accepts {patterns : List String} {base : String}
    (htrimmed : ∀ pattern ∈ patterns, pattern.toList ≠ [] ∧ Chars.Trimmed pattern.toList)
    (hordinary : ∀ pattern ∈ patterns, IsOrdinary pattern)
    (hbase : ∀ c ∈ base.toList, c ≠ '[' ∧ c ≠ '{' ∧ c ≠ '}') :
    checkPatterns patterns = .ok () ↔ PatternSet.Accepts patterns base := by
  have hmeaningful : PatternSet.meaningful patterns = patterns.map String.toList := by
    unfold PatternSet.meaningful
    have htrim : patterns.map (fun pattern => Chars.trim pattern.toList) =
        patterns.map String.toList :=
      List.map_congr_left fun pattern hpattern => (htrimmed pattern hpattern).2.trim_eq
    rw [htrim, List.filter_eq_self]
    intro text htext
    obtain ⟨pattern, hpattern, rfl⟩ := List.mem_map.1 htext
    have hne := (htrimmed pattern hpattern).1
    have hmark := (hordinary pattern hpattern).start
    simp [SelectionPattern.saysNothing, hne, hmark]
  rw [checkPatterns_eq_ok_iff, PatternSet.accepts_iff, hmeaningful, List.forall_mem_map]
  refine forall₂_congr fun pattern hpattern => ?_
  have h := hordinary pattern hpattern
  obtain ⟨blanks, hblanks, hbody, hsuffix⟩ := exists_bodyOf pattern
  have hmeta : ∀ c ∈ blanks, isMeta c = false := fun c hc => not_isMeta_of_isBlank (hblanks c hc)
  have hescape : '\\' ∉ (SelectionPattern.splitMark pattern.toList).2 := by
    intro hmem
    refine h.escape (hsuffix.subset ?_)
    rw [hbody]
    exact List.mem_append_right _ hmem
  have hslashes := h.slashes
  rw [hbody] at hslashes
  have hslashesBody := slashesOutside_of_append hslashes (walk_of_not_isMeta hmeta 0)
  rw [hbody]
  refine (accepts_append_iff hmeta).trans ?_
  unfold SelectionPattern.normalized
  rw [accepts_normalize_iff (by rwa [String.toList_ofList]) (by rwa [String.toList_ofList]) hbase,
    String.toList_ofList]
  rfl

/-- Patterns with a slash beside a class, a mark, a group, and a class that is not closed. -/
theorem checkPatterns_iff_accepts_mixed :
    let good := ["src/*.[ch]", "! /w/\x7ba,b\x7d/[!x-z]*"]
    let bad := ["src/[.js", "a"]
    let plain (patterns : List String) (base : String) : Prop :=
      (∀ pattern ∈ patterns, pattern.toList ≠ [] ∧ Chars.Trimmed pattern.toList) ∧
        (∀ pattern ∈ patterns, IsOrdinary pattern) ∧
        ∀ c ∈ base.toList, c ≠ '[' ∧ c ≠ '{' ∧ c ≠ '}'
    plain good "/w" ∧ plain bad "/w" ∧
      checkPatterns good = .ok () ∧ PatternSet.Accepts good "/w" ∧
      checkPatterns bad ≠ .ok () ∧ ¬PatternSet.Accepts bad "/w" := by
  intro good bad plain
  have hbase : ∀ c ∈ "/w".toList, c ≠ '[' ∧ c ≠ '{' ∧ c ≠ '}' := by
    rw [show "/w".toList = ['/', 'w'] from rfl]
    simp
  have hgood : plain good "/w" := ⟨by decide +kernel, by decide +kernel, hbase⟩
  have hbad : plain bad "/w" := ⟨by decide +kernel, by decide +kernel, hbase⟩
  have hok : checkPatterns good = .ok () := by decide +kernel
  have hfault : checkPatterns bad ≠ .ok () := by decide +kernel
  refine ⟨hgood, hbad, hok, ?_, hfault, ?_⟩
  · exact (checkPatterns_iff_accepts hgood.1 hgood.2.1 hgood.2.2).1 hok
  · exact fun h => hfault ((checkPatterns_iff_accepts hbad.1 hbad.2.1 hbad.2.2).2 h)

/-- The settings refuse a comment that a set leaves out, a `\` at the end that a set takes for a
slash, a range that a set finds in order once a segment is dropped from the class, and a class in
the name of the base directory; and they let a class pass that a set finds open. -/
theorem checkPatterns_differ :
    let compiles (patterns : List String) (base : String) : Prop :=
      ∃ set, PatternSet.compile patterns base = .ok set
    (checkPatterns ["# [draft"] ≠ .ok () ∧ compiles ["# [draft"] "/w") ∧
    (checkPatterns ["a\\"] ≠ .ok () ∧ compiles ["a\\"] "/w") ∧
    (checkPatterns ["[.-/./-.]"] ≠ .ok () ∧ compiles ["[.-/./-.]"] "/w") ∧
    (checkPatterns ["/w[/a"] ≠ .ok () ∧ compiles ["/w[/a"] "/w[") ∧
    (checkPatterns ["src\\[a"] = .ok () ∧ ¬compiles ["src\\[a"] "/w") := by
  intro compiles
  have hcompiles : ∀ patterns base,
      compiles patterns base ↔ (PatternSet.compile patterns base).toOption.isSome = true := by
    intro patterns base
    show (∃ set, _ = _) ↔ _
    cases PatternSet.compile patterns base with
    | ok set => exact iff_of_true ⟨set, rfl⟩ rfl
    | error e => exact iff_of_false (fun ⟨_, h⟩ => nomatch h) nofun
  simp only [hcompiles]
  decide +kernel

end Settings

end ParseAudit
