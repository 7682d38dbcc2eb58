import ParseAudit.Resolve
import ParseAudit.Proofs.Action
import ParseAudit.Proofs.Text.Lines
import Mathlib.Data.List.Forall2
/-!
# Values that hold several patterns

A value holds one pattern on each of its lines.  The settings of a run depend on the patterns that
are given and not on how these are spread over values, neither where a document or an override is
chosen, nor where patterns are checked.

* `Grouped`: the same texts, but some of them joined to values of several lines;
* `patternsOf_grouped`: these hold the texts as patterns, trimmed and but for blank ones;
* `patternsOf_eq_nil_iff`, `pick_eq`: an override is chosen if it holds a pattern;
* `Given.sources_put_congr`, `Given.settings_put_congr`: values that hold the same patterns;
* `grouped_values_alike`: so texts may be joined in any place, and the patterns of a source may be
  given again.
-/

namespace ParseAudit

open Chars

/-! ## Patterns in values -/

namespace Chars

/-- The patterns in a value. -/
def patternLines (s : List Char) : List (List Char) := ((lines s).map trim).filter (· ≠ [])

/-- What stands before a line feed is a line, whatever is behind it. -/
theorem patternLines_append_feed {p : List Char} (h : '\n' ∉ p) (rest : List Char) :
    patternLines (p ++ '\n' :: rest) = [trim p].filter (· ≠ []) ++ patternLines rest := by
  unfold patternLines
  rw [lines_append_feed h, List.map_cons, trim_withoutReturn, ← List.singleton_append,
    List.filter_append]

theorem patternLines_of_not_mem {p : List Char} (h : '\n' ∉ p) :
    patternLines p = [trim p].filter (· ≠ []) := by
  unfold patternLines
  cases p with
  | nil => rfl
  | cons c cs => rw [lines_of_not_mem h (List.cons_ne_nil c cs), List.map_singleton]

/-- Both line ends keep the lines on their sides apart. -/
theorem patternLines_append {p lineEnd : List Char} (h : '\n' ∉ p)
    (hend : lineEnd = ['\n'] ∨ lineEnd = ['\r', '\n']) (rest : List Char) :
    patternLines (p ++ lineEnd ++ rest) = patternLines p ++ patternLines rest := by
  rw [patternLines_of_not_mem h]
  rcases hend with rfl | rfl
  · rw [List.append_assoc, List.singleton_append, patternLines_append_feed h]
  · -- The carriage return is a blank at the end of the line in front of it.
    have hreturn : AllBlank ['\r'] := by decide
    have hp : '\n' ∉ p ++ ['\r'] := by simpa using h
    have hsplit : p ++ ['\r', '\n'] ++ rest = (p ++ ['\r']) ++ '\n' :: rest := by simp
    rw [hsplit, patternLines_append_feed hp, trim_append_blank hreturn]

/-- A value without a pattern is blank. -/
theorem patternLines_eq_nil_iff {s : List Char} : patternLines s = [] ↔ AllBlank s := by
  unfold patternLines
  rw [allBlank_iff_forall_lines, List.filter_eq_nil_iff, List.forall_mem_map]
  simp only [ne_eq, decide_not, Bool.not_eq_true', Bool.not_eq_false, decide_eq_true_eq,
    trim_eq_nil_iff]

theorem mem_patternLines {s p : List Char} (h : p ∈ patternLines s) :
    p ≠ [] ∧ Trimmed p ∧ '\n' ∉ p := by
  obtain ⟨hmem, hne⟩ := List.mem_filter.1 h
  obtain ⟨line, hline, rfl⟩ := List.mem_map.1 hmem
  refine ⟨of_decide_eq_true hne, trimmed_trim line, ?_⟩
  -- What is left of a line when it is trimmed is a part of it.
  obtain ⟨front, behind, -, -, hcut⟩ := exists_trim line
  intro hfeed
  refine feed_not_mem_of_mem_lines hline ?_
  rw [hcut]
  exact List.mem_append_left _ (List.mem_append_right _ hfeed)

end Chars

/-! ## Groups -/

/-- Texts without line feeds that are joined to one value, at each place by one of the two line
ends. -/
inductive Joined : List String → String → Prop where
  | one {text : String} (hfeed : '\n' ∉ text.toList) : Joined [text] text
  | cons {text lineEnd value : String} {texts : List String} (hfeed : '\n' ∉ text.toList)
      (hend : lineEnd = "\n" ∨ lineEnd = "\r\n") (hvalue : Joined texts value) :
      Joined (text :: texts) (text ++ lineEnd ++ value)

/-- The texts are cut into groups that follow one another, and each group is joined to a value. -/
def Grouped (texts values : List String) : Prop :=
  ∃ groups : List (List String), groups.flatten = texts ∧ List.Forall₂ Joined groups values

theorem Joined.feed_not_mem {texts : List String} {value : String} (h : Joined texts value) :
    ∀ text ∈ texts, '\n' ∉ text.toList := by
  induction h with
  | one hfeed => exact List.forall_mem_singleton.2 hfeed
  | cons hfeed _ _ ih => exact List.forall_mem_cons.2 ⟨hfeed, ih⟩

theorem Grouped.feed_not_mem {texts values : List String} (h : Grouped texts values) :
    ∀ text ∈ texts, '\n' ∉ text.toList := by
  obtain ⟨groups, rfl, hgroups⟩ := h
  induction hgroups with
  | nil => exact nofun
  | cons hfirst _ ih =>
    intro text htext
    rw [List.flatten_cons, List.mem_append] at htext
    rcases htext with htext | htext
    · exact hfirst.feed_not_mem text htext
    · exact ih text htext

/-- Each text may be a group by itself. -/
theorem grouped_self {texts : List String} (h : ∀ text ∈ texts, '\n' ∉ text.toList) :
    Grouped texts texts := by
  refine ⟨texts.map fun text => [text], ?_, ?_⟩
  · rw [← List.flatMap_def, List.flatMap_singleton']
  · rw [List.forall₂_map_left_iff, List.forall₂_same]
    exact fun text htext => .one (h text htext)

namespace Settings

/-- The patterns in values are those in one value after another. -/
theorem patternsOf_eq (values : List String) :
    patternsOf values =
      (values.flatMap fun value => patternLines value.toList).map String.ofList := by
  have htrim : ∀ ls : List (List Char),
      (ls.map String.ofList).map Text.trim = (ls.map trim).map String.ofList := by
    intro ls
    simp only [List.map_map, Function.comp_def, Text.trim, String.toList_ofList]
  have hone : ∀ value : String,
      ((Text.lines value).map Text.trim).filter (fun pattern => !pattern.isEmpty) =
        (patternLines value.toList).map String.ofList := by
    intro value
    unfold Text.lines patternLines
    have hempty : ∀ line : List Char,
        (!(String.ofList line).isEmpty) = decide (line ≠ []) := by
      intro line
      rw [Bool.eq_iff_iff]
      simp
    rw [htrim, List.filter_map]
    exact congrArg _ (List.filter_congr fun line _ => hempty line)
  unfold patternsOf
  rw [List.map_flatMap, List.filter_flatMap, List.map_flatMap]
  exact List.flatMap_congr fun value _ => hone value

theorem patternsOf_append (values values' : List String) :
    patternsOf (values ++ values') = patternsOf values ++ patternsOf values' := by
  rw [patternsOf_eq, patternsOf_eq, patternsOf_eq, List.flatMap_append, List.map_append]

theorem patternsOf_cons (value : String) (values : List String) :
    patternsOf (value :: values) = patternsOf [value] ++ patternsOf values :=
  patternsOf_append [value] values

/-- A text of one line holds itself without the blanks around it, unless it is blank. -/
theorem patternsOf_of_feed_not_mem {text : String} (hfeed : '\n' ∉ text.toList) :
    patternsOf [text] = [Text.trim text].filter (· ≠ "") := by
  rw [patternsOf_eq, List.flatMap_singleton, patternLines_of_not_mem hfeed]
  by_cases h : trim text.toList = []
  · simp [Text.trim, h]
  · simp [Text.trim, h]

/-- A value that is joined from texts holds these, trimmed and but for the blank ones. -/
theorem patternsOf_joined {texts : List String} {value : String} (h : Joined texts value) :
    patternsOf [value] = (texts.map Text.trim).filter (· ≠ "") := by
  induction h with
  | one hfeed => exact patternsOf_of_feed_not_mem hfeed
  | @cons text lineEnd value texts hfeed hend hvalue ih =>
    -- The first text is a line of its own, and the others are in what stands behind its line end.
    have hends : lineEnd.toList = ['\n'] ∨ lineEnd.toList = ['\r', '\n'] := by
      rcases hend with rfl | rfl
      · exact .inl rfl
      · exact .inr rfl
    have hsplit : patternsOf [text ++ lineEnd ++ value] =
        patternsOf [text] ++ patternsOf [value] := by
      rw [← patternsOf_cons text [value], patternsOf_eq, patternsOf_eq]
      simp only [List.flatMap_cons, List.flatMap_nil, List.append_nil, String.toList_append,
        patternLines_append hfeed hends]
    rw [hsplit, ih, patternsOf_of_feed_not_mem hfeed, List.map_cons, ← List.filter_append,
      List.singleton_append]

/-- Values that are joined from groups of texts hold all of these. -/
theorem patternsOf_grouped {texts values : List String} (h : Grouped texts values) :
    patternsOf values = (texts.map Text.trim).filter (· ≠ "") := by
  obtain ⟨groups, rfl, hgroups⟩ := h
  induction hgroups with
  | nil => rfl
  | cons hfirst _ ih =>
    rw [patternsOf_cons, patternsOf_joined hfirst, ih, List.flatten_cons, List.map_append,
      List.filter_append]

theorem patternsOf_eq_of_grouped {texts values : List String} (h : Grouped texts values) :
    patternsOf values = patternsOf texts := by
  rw [patternsOf_grouped h, patternsOf_grouped (grouped_self h.feed_not_mem)]

theorem patternsOf_eq_nil_iff {values : List String} :
    patternsOf values = [] ↔ ∀ value ∈ values, AllBlank value.toList := by
  rw [patternsOf_eq, List.map_eq_nil_iff, List.flatMap_eq_nil_iff]
  exact forall₂_congr fun value _ => patternLines_eq_nil_iff

theorem mem_patternsOf {values : List String} {pattern : String} (h : pattern ∈ patternsOf values) :
    pattern ≠ "" ∧ Trimmed pattern.toList ∧ '\n' ∉ pattern.toList := by
  rw [patternsOf_eq] at h
  obtain ⟨line, hline, rfl⟩ := List.mem_map.1 h
  obtain ⟨value, -, hline⟩ := List.mem_flatMap.1 hline
  obtain ⟨hne, hrest⟩ := mem_patternLines hline
  rw [String.toList_ofList]
  refine ⟨?_, hrest⟩
  rw [ne_eq, String.ofList_eq_empty_iff]
  exact hne

/-- Trimmed texts of one line that are not empty are the patterns in themselves. -/
theorem patternsOf_eq_self {patterns : List String}
    (h : ∀ p ∈ patterns, p ≠ "" ∧ Trimmed p.toList ∧ '\n' ∉ p.toList) :
    patternsOf patterns = patterns := by
  have htrim : patterns.map Text.trim = patterns := by
    refine (List.map_congr_left fun p hp => ?_).trans (List.map_id patterns)
    rw [Text.trim, (h p hp).2.1.trim_eq, String.ofList_toList, id_eq]
  rw [patternsOf_grouped (grouped_self fun p hp => (h p hp).2.2), htrim, List.filter_eq_self]
  intro p hp
  exact decide_eq_true (h p hp).1

theorem patternsOf_patternsOf (values : List String) :
    patternsOf (patternsOf values) = patternsOf values :=
  patternsOf_eq_self fun _ hp => mem_patternsOf hp

/-- An override is chosen if it holds a pattern. -/
theorem pick_eq (override document : List String) :
    pick override document = if patternsOf override = [] then document else override := by
  have hany : (override.any fun value => !Text.isBlankText value) = true ↔
      patternsOf override ≠ [] := by
    rw [ne_eq, patternsOf_eq_nil_iff, List.any_eq_true]
    push Not
    simp only [← isBlankText_iff, Bool.not_eq_true', Bool.not_eq_true]
  unfold pick
  by_cases h : patternsOf override = []
  · rw [if_pos h, if_neg fun hpick => hany.1 hpick h]
  · rw [if_neg h, if_pos (hany.2 h)]

end Settings

/-! ## What is given -/

/-- A settings document and the overrides given with the call. -/
structure Given where
  document : SettingsDocument
  overrides : Overrides

/-- A place for patterns: the document or the overrides, for one of the sets. -/
inductive PatternInput where
  | document (target : FileTarget)
  | override (target : FileTarget)

namespace Given

open Settings

/-- The same with other values for patterns in one place. -/
def put (g : Given) (values : List String) : PatternInput → Given
  | .document .files => { g with document.files := values }
  | .document .invalidFiles => { g with document.invalidFiles := values }
  | .override .files => { g with overrides.files := values }
  | .override .invalidFiles => { g with overrides.invalidFiles := values }

/-- The sources that come of it. -/
def sources (g : Given) : Except Failure FileSources := Settings.sources g.document g.overrides

/-- The settings that come of it. -/
def settings (g : Given) : Except Failure Settings := Settings.resolve g.document g.overrides

/-- The values for one of the sets, from the document or from the overrides. -/
def chosen (g : Given) : FileTarget → List String
  | .files => pick g.overrides.files g.document.files
  | .invalidFiles => pick g.overrides.invalidFiles g.document.invalidFiles

/-- The source of one of the sets by itself. -/
def source (g : Given) : FileTarget → Except Failure FileSource
  | .files => sourceOf (g.chosen .files) (g.overrides.filesList <|> g.document.filesList)
      (g.overrides.filesListKind <|> g.document.filesListKind)
  | .invalidFiles => sourceOf (g.chosen .invalidFiles)
      (g.overrides.invalidFilesList <|> g.document.invalidFilesList)
      (g.overrides.invalidFilesListKind <|> g.document.invalidFilesListKind)

end Given

namespace Settings

/-- A source depends on the patterns in its values only. -/
theorem sourceOf_congr {values values' : List String} (h : patternsOf values = patternsOf values')
    (listFile listKind : Option String) :
    sourceOf values listFile listKind = sourceOf values' listFile listKind := by
  unfold sourceOf
  rw [h]

theorem patterns_of_sourceOf {values : List String} {listFile listKind : Option String}
    {source : FileSource} (h : sourceOf values listFile listKind = .ok source) :
    source.patterns = patternsOf values := by
  obtain ⟨_, -, h⟩ := Action.bind_eq_ok_iff.1 h
  obtain ⟨kind, -, h⟩ := Action.bind_eq_ok_iff.1 h
  cases h
  rfl

/-- Where an override holds a pattern, its patterns are taken, and those of the document
otherwise. -/
theorem patternsOf_pick (override document : List String) :
    patternsOf (pick override document) =
      if patternsOf override = [] then patternsOf document else patternsOf override := by
  rw [pick_eq]
  split <;> rfl

end Settings

namespace Given

open Settings

variable {g : Given} {values values' : List String} {found : FileSources}

theorem sources_eq (g : Given) :
    g.sources = (do
      let files ← (g.source .files).mapError (.within "resolve files")
      let invalidFiles ← (g.source .invalidFiles).mapError (.within "resolve invalid_files")
      return ⟨files, invalidFiles⟩) := rfl

theorem source_of_sources (h : g.sources = .ok found) (target : FileTarget) :
    g.source target = .ok (found.get target) := by
  rw [sources_eq] at h
  obtain ⟨files, hfiles, h⟩ := Action.bind_eq_ok_iff.1 h
  obtain ⟨invalidFiles, hinvalid, h⟩ := Action.bind_eq_ok_iff.1 h
  cases h
  cases target with
  | files => exact Action.mapError_eq_ok_iff.1 hfiles
  | invalidFiles => exact Action.mapError_eq_ok_iff.1 hinvalid

/-- The patterns of a source are those in the values that were chosen for it. -/
theorem patterns_of_sources (h : g.sources = .ok found) (target : FileTarget) :
    (found.get target).patterns = patternsOf (g.chosen target) := by
  have hsource := source_of_sources h target
  cases target <;> exact patterns_of_sourceOf hsource

/-- All that is put in a place counts for are the patterns that are chosen then. -/
theorem source_put_congr {input : PatternInput} {target : FileTarget}
    (h : patternsOf ((g.put values input).chosen target) =
      patternsOf ((g.put values' input).chosen target)) :
    (g.put values input).source target = (g.put values' input).source target := by
  rcases input with (_ | _) | (_ | _) <;> cases target <;> exact sourceOf_congr h _ _

theorem sources_put_congr {input : PatternInput}
    (h : ∀ target, patternsOf ((g.put values input).chosen target) =
      patternsOf ((g.put values' input).chosen target)) :
    (g.put values input).sources = (g.put values' input).sources := by
  rw [sources_eq, sources_eq, source_put_congr (h .files), source_put_congr (h .invalidFiles)]

/-- The other settings do not look at patterns. -/
theorem settings_put_congr {input : PatternInput}
    (h : (g.put values input).sources = (g.put values' input).sources) :
    (g.put values input).settings = (g.put values' input).settings := by
  unfold sources at h
  unfold settings resolve
  rw [h]
  rcases input with (_ | _) | (_ | _) <;> rfl

/-- Values that hold the same patterns have the same ones chosen. -/
theorem patternsOf_chosen_put (h : patternsOf values = patternsOf values') (input : PatternInput)
    (target : FileTarget) :
    patternsOf ((g.put values input).chosen target) =
      patternsOf ((g.put values' input).chosen target) := by
  rcases input with (_ | _) | (_ | _) <;> cases target <;>
    simp only [chosen, put, patternsOf_pick, h]

/-- Patterns that are given in an override are chosen. -/
theorem patternsOf_chosen_override (target : FileTarget) (h : patternsOf values ≠ []) :
    patternsOf ((g.put values (.override target)).chosen target) = patternsOf values := by
  cases target <;> exact (patternsOf_pick _ _).trans (if_neg h)

/-- An override that holds the patterns that were chosen anyway changes nothing. -/
theorem patternsOf_chosen_again {target : FileTarget} (hne : patternsOf values ≠ [])
    (h : patternsOf values = patternsOf (g.chosen target)) (other : FileTarget) :
    patternsOf ((g.put values (.override target)).chosen other) =
      patternsOf (g.chosen other) := by
  by_cases hother : other = target
  · subst hother
    rw [patternsOf_chosen_override other hne, h]
  · -- Nothing was put where the other set is given.
    cases target <;> cases other <;> first | exact absurd rfl hother | rfl

/-- The values that an override has may be put there again. -/
theorem exists_put_override (g : Given) (target : FileTarget) :
    ∃ values, g.put values (.override target) = g := by
  cases target with
  | files => exact ⟨g.overrides.files, rfl⟩
  | invalidFiles => exact ⟨g.overrides.invalidFiles, rfl⟩

/-- Texts may be joined to values of several lines in groups that follow one another, wherever
patterns are given: the values hold the texts as patterns, trimmed and but for blank ones, the same
is chosen from the document and the overrides, and the same sources and settings come of it, or the
same failure.  The patterns of a source are those in the values that are chosen, and they are
trimmed texts of one line that are not empty.  Given again as an override they are the patterns of a
source again, and what comes of the same document and the same other overrides stays as it was. -/
theorem grouped_values_alike :
    (∀ texts values, Grouped texts values →
      patternsOf values = (texts.map Text.trim).filter (· ≠ "") ∧
      (∀ others,
        (pick values others = values ∧ pick texts others = texts ∨
          pick values others = others ∧ pick texts others = others) ∧
        (pick others values = others ∧ pick others texts = others ∨
          pick others values = values ∧ pick others texts = texts)) ∧
      ∀ g : Given, ∀ input,
        (g.put values input).sources = (g.put texts input).sources ∧
          (g.put values input).settings = (g.put texts input).settings) ∧
    ∀ g : Given, ∀ found, g.sources = .ok found → ∀ target,
      let patterns := (found.get target).patterns
      patterns = patternsOf (g.chosen target) ∧
        (∀ p ∈ patterns, p ≠ "" ∧ Trimmed p.toList ∧ '\n' ∉ p.toList) ∧
        (patterns ≠ [] → ∀ other : FileTarget,
          (g.put patterns (.override target)).sources = .ok found ∧
          (g.put patterns (.override target)).settings = g.settings ∧
          ∀ g' : Given, ∀ found', (g'.put patterns (.override other)).sources = .ok found' →
            (found'.get other).patterns = patterns) := by
  refine ⟨?joined, ?again⟩
  case joined =>
    intro texts values hgrouped
    have hsame := patternsOf_eq_of_grouped hgrouped
    refine ⟨patternsOf_grouped hgrouped, fun others => ⟨?_, ?_⟩, fun g input => ?_⟩
    · rw [pick_eq, pick_eq, hsame]
      by_cases h : patternsOf texts = []
      · simp only [if_pos h, and_self, or_true]
      · simp only [if_neg h, and_self, true_or]
    · rw [pick_eq, pick_eq]
      by_cases h : patternsOf others = []
      · simp only [if_pos h, and_self, or_true]
      · simp only [if_neg h, and_self, true_or]
    · have hsources := sources_put_congr (g := g) (patternsOf_chosen_put hsame input)
      exact ⟨hsources, settings_put_congr hsources⟩
  case again =>
    intro g found hfound target patterns
    have hpatterns : patterns = patternsOf (g.chosen target) := patterns_of_sources hfound target
    have hagain : patternsOf patterns = patterns := by rw [hpatterns, patternsOf_patternsOf]
    refine ⟨hpatterns, fun p hp => mem_patternsOf (hpatterns ▸ hp), fun hne other => ?_⟩
    have hnone : patternsOf patterns ≠ [] := by rwa [hagain]
    -- What is given is compared with itself, where the override has the values that it has anyway.
    obtain ⟨own, hown⟩ := exists_put_override g target
    have hsources : (g.put patterns (.override target)).sources =
        (g.put own (.override target)).sources := by
      refine sources_put_congr fun t => ?_
      rw [hown]
      exact patternsOf_chosen_again hnone (hagain.trans hpatterns) t
    have hsettings := settings_put_congr hsources
    rw [hown] at hsources hsettings
    refine ⟨hsources.trans hfound, hsettings, ?_⟩
    intro g' found' hfound'
    rw [patterns_of_sources hfound' other, patternsOf_chosen_override other hnone, hagain]

/-- Four texts, one of them blank, as two values; and their patterns given again. -/
theorem grouped_values_alike_mixed :
    let texts := ["a/*.js", "  b/*.js  ", "", "!a/x.js\r"]
    let values := ["a/*.js\r\n  b/*.js  \n", "!a/x.js\r"]
    let patterns := ["a/*.js", "b/*.js", "!a/x.js"]
    let g : Given := ⟨{ SettingsDocument.empty with files := ["c.js"] }, Overrides.none⟩
    let found : FileSources := ⟨⟨patterns, none, .patterns⟩, ⟨[], none, .patterns⟩⟩
    Grouped texts values ∧
      (g.put texts (.override .files)).sources = .ok found ∧
      (g.put values (.override .files)).sources = .ok found ∧
      patterns ≠ [] ∧
      (g.put patterns (.override .files)).sources = .ok found := by
  intro texts values patterns g found
  have hgrouped : Grouped texts values := by
    refine ⟨[["a/*.js", "  b/*.js  ", ""], ["!a/x.js\r"]], rfl, ?_⟩
    have hempty : Joined [""] "" := .one (by decide)
    have hsecond : Joined ["  b/*.js  ", ""] "  b/*.js  \n" :=
      .cons (by decide) (.inl rfl) hempty
    have hfirst : Joined ["a/*.js", "  b/*.js  ", ""] "a/*.js\r\n  b/*.js  \n" :=
      .cons (by decide) (.inr rfl) hsecond
    exact .cons hfirst (.cons (.one (by decide)) .nil)
  have htexts : (g.put texts (.override .files)).sources = .ok found := by decide +kernel
  have hne : patterns ≠ [] := List.cons_ne_nil _ _
  obtain ⟨hjoined, hagain⟩ := grouped_values_alike
  obtain ⟨-, -, hsame⟩ := hjoined texts values hgrouped
  have hvalues := (hsame g (.override .files)).1.trans htexts
  obtain ⟨-, -, hpatterns⟩ := hagain _ found htexts .files
  exact ⟨hgrouped, htexts, hvalues, hne, (hpatterns hne .files).1⟩

end Given

end ParseAudit
