import ParseAudit.Render.WorkflowCommand
import ParseAudit.Proofs.Text.Numeral
import ParseAudit.Proofs.Text.Replacing
import ParseAudit.Proofs.Text.Separators
import Mathlib.Data.List.Basic
/-!
# Annotations are read back

A reader of a workflow command cuts it at the first `::` after the one that it begins with, cuts
what stands in front at its first blank, at its commas and each field at its first `=`, and undoes
the escapes.  From the annotation for a finding it gets everything that the annotation was made of:
no separator stands in anything that was escaped, and the escapes are codes that can be told apart.

* `escapeData_eq_replaceAll`, `escapeProperty_eq_replaceAll`: escaping by successive replacements;
* `unescape_escapeData`, `unescape_escapeProperty`: successive replacements undo it;
* `Shows`: what an annotation says of a finding, word by word;
* `read?_line`, `exists_shows`: an annotation is read as what it shows of its finding;
* `line_eq_iff`: annotations are the same only if all that they show is the same;
* `not_mem_line`: nothing in an annotation ends a line.
-/

namespace ParseAudit.WorkflowCommand

open Chars

/-- Facts on listed characters are decided member by member, whatever else can be decided of all
characters. -/
local instance (priority := 2000) decidableListed (p : Char → Prop) [DecidablePred p]
    (l : List Char) : Decidable (∀ c ∈ l, p c) :=
  List.decidableBAll p l

/-! ## Escaping -/

/-- The characters that are escaped somewhere. -/
def special : List Char := ['%', '\r', '\n', ':', ',']

theorem escapeDataChar_eq_self {c : Char} (h : c ∉ special) : escapeDataChar c = [c] := by
  simp only [special, List.mem_cons, List.not_mem_nil, or_false, not_or] at h
  simp [escapeDataChar, h]

theorem escapePropertyChar_eq_self {c : Char} (h : c ∉ special) : escapePropertyChar c = [c] := by
  have hdata := escapeDataChar_eq_self h
  simp only [special, List.mem_cons, List.not_mem_nil, or_false, not_or] at h
  simp [escapePropertyChar, h, hdata]

/-- Escaping a message is replacing three characters one after another, the mark of the codes before
the others. -/
theorem escapeData_eq_replaceAll (s : List Char) :
    s.flatMap escapeDataChar =
      replaceAll ['\n'] ['%', '0', 'A'] (replaceAll ['\r'] ['%', '0', 'D']
        (replaceAll ['%'] ['%', '2', '5'] s)) := by
  simp only [replaceAll_singleton, List.flatMap_assoc]
  apply List.flatMap_congr
  rintro c -
  by_cases h : c ∈ special
  · revert c; decide
  · rw [escapeDataChar_eq_self h]
    simp only [special, List.mem_cons, List.not_mem_nil, or_false, not_or] at h
    simp [h]

/-- Escaping the value of a field replaces two more characters after that. -/
theorem escapeProperty_eq_replaceAll (s : List Char) :
    s.flatMap escapePropertyChar =
      replaceAll [','] ['%', '2', 'C'] (replaceAll [':'] ['%', '3', 'A']
        (s.flatMap escapeDataChar)) := by
  simp only [replaceAll_singleton, List.flatMap_assoc]
  apply List.flatMap_congr
  rintro c -
  by_cases h : c ∈ special
  · revert c; decide
  · rw [escapeDataChar_eq_self h, escapePropertyChar_eq_self h]
    simp only [special, List.mem_cons, List.not_mem_nil, or_false, not_or] at h
    simp [h]

/-- A special character that is in no code does not occur at all. -/
theorem not_mem_flatMap {f : Char → List Char} (hself : ∀ d ∉ special, f d = [d]) {c : Char}
    (hc : c ∈ special) (hcodes : ∀ d ∈ special, c ∉ f d) (s : List Char) : c ∉ s.flatMap f := by
  rw [List.mem_flatMap]
  rintro ⟨d, -, hd⟩
  by_cases h : d ∈ special
  · exact hcodes d h hd
  · rw [hself d h, List.mem_singleton] at hd
    exact h (hd ▸ hc)

/-- No line end is left in a message that is escaped. -/
theorem not_mem_escapeData {c : Char} (hc : c ∈ ['\n', '\r']) (s : String) :
    c ∉ (escapeData s).toList := by
  have hgone : ∀ c ∈ ['\n', '\r'], c ∈ special ∧ ∀ d ∈ special, c ∉ escapeDataChar d := by decide
  rw [escapeData, String.toList_ofList]
  exact not_mem_flatMap (fun _ => escapeDataChar_eq_self) (hgone c hc).1 (hgone c hc).2 _

/-- No separator and no line end is left in a value that is escaped. -/
theorem not_mem_escapeProperty {c : Char} (hc : c ∈ [':', ',', '\n', '\r']) (s : String) :
    c ∉ (escapeProperty s).toList := by
  have hgone : ∀ c ∈ [':', ',', '\n', '\r'],
      c ∈ special ∧ ∀ d ∈ special, c ∉ escapePropertyChar d := by decide
  rw [escapeProperty, String.toList_ofList]
  exact not_mem_flatMap (fun _ => escapePropertyChar_eq_self) (hgone c hc).1 (hgone c hc).2 _

/-! ## Undoing it -/

/-- Undoes escaping, the mark of the codes after the others. -/
def unescape (s : List Char) : List Char :=
  replaceAll ['%', '2', '5'] ['%'] <| replaceAll ['%', '2', 'C'] [','] <|
    replaceAll ['%', '3', 'A'] [':'] <| replaceAll ['%', '0', 'D'] ['\r'] <|
      replaceAll ['%', '0', 'A'] ['\n'] s

theorem isCoding_escapeDataChar : IsCoding '%' escapeDataChar := by
  intro c
  unfold escapeDataChar
  split
  · exact .inr ⟨'2', '5', by decide, by decide, rfl⟩
  · next hmark =>
    split
    · exact .inr ⟨'0', 'D', by decide, by decide, rfl⟩
    · split
      · exact .inr ⟨'0', 'A', by decide, by decide, rfl⟩
      · exact .inl ⟨c, by simpa using hmark, rfl⟩

theorem isCoding_escapePropertyChar : IsCoding '%' escapePropertyChar := by
  intro c
  unfold escapePropertyChar
  split
  · exact .inr ⟨'3', 'A', by decide, by decide, rfl⟩
  · split
    · exact .inr ⟨'2', 'C', by decide, by decide, rfl⟩
    · exact isCoding_escapeDataChar c

/-- A character that is never escaped is left alone. -/
theorem unescape_singleton {c : Char} (h : c ∉ special) : unescape [c] = [c] := by
  have hmark : '%' ≠ c := by
    rintro rfl
    exact h (by decide)
  simp only [unescape, replaceAll_cons_of_ne hmark, replaceAll_nil]

/-- A text is undone character by character. -/
theorem unescape_flatMap {f : Char → List Char} (hf : IsCoding '%' f)
    (hself : ∀ c ∉ special, f c = [c]) (hcodes : ∀ c ∈ special, unescape (f c) = [c])
    (s : List Char) : unescape (s.flatMap f) = s := by
  have hchar : ∀ c, unescape (f c) = [c] := by
    intro c
    by_cases h : c ∈ special
    · exact hcodes c h
    · rw [hself c h, unescape_singleton h]
  -- After each replacement the text is still written in codes, so the next one goes by characters.
  have hfeed := hf.rewriting (a := '0') (b := 'A') (d := '\n') (by decide)
  have hreturn := hfeed.rewriting (a := '0') (b := 'D') (d := '\r') (by decide)
  have hcolon := hreturn.rewriting (a := '3') (b := 'A') (d := ':') (by decide)
  have hcomma := hcolon.rewriting (a := '2') (b := 'C') (d := ',') (by decide)
  refine Eq.trans ?_ (List.flatMap_singleton' s)
  simp only [unescape, replaceAll_flatMap hf, replaceAll_flatMap hfeed, replaceAll_flatMap hreturn,
    replaceAll_flatMap hcolon, replaceAll_flatMap hcomma]
  refine List.flatMap_congr fun c _ => ?_
  simpa only [unescape, replaceAll_coding hf, replaceAll_coding hfeed, replaceAll_coding hreturn,
    replaceAll_coding hcolon, replaceAll_coding hcomma] using hchar c

theorem unescape_escapeData (s : String) :
    String.ofList (unescape (escapeData s).toList) = s := by
  have hcodes : ∀ c ∈ special, unescape (escapeDataChar c) = [c] := by decide
  rw [escapeData, String.toList_ofList, unescape_flatMap isCoding_escapeDataChar
    (fun _ => escapeDataChar_eq_self) hcodes, String.ofList_toList]

theorem unescape_escapeProperty (s : String) :
    String.ofList (unescape (escapeProperty s).toList) = s := by
  have hcodes : ∀ c ∈ special, unescape (escapePropertyChar c) = [c] := by decide
  rw [escapeProperty, String.toList_ofList, unescape_flatMap isCoding_escapePropertyChar
    (fun _ => escapePropertyChar_eq_self) hcodes, String.ofList_toList]

/-! ## Reading annotations -/

/-- What an annotation shows of a finding. -/
structure Annotation where
  level : String
  path : Option String
  line : Option UInt32
  endLine : Option UInt32
  column : Option UInt32
  endColumn : Option UInt32
  title : String
  message : String
  deriving DecidableEq

/-- A field, cut at its first `=`. -/
def readField? (s : List Char) : Option (String × String) :=
  (splitFirst ['='] s).map fun (name, value) => (String.ofList name, String.ofList (unescape value))

/-- The number in a field, if there is such a field. -/
def number? (fields : List (String × String)) (name : String) : Option UInt32 := do
  let text ← fields.lookup name
  let n ← naturalBelow? UInt32.size text.toList
  return UInt32.ofNat n

/-- Reads an annotation. -/
def read? (text : String) : Option Annotation := do
  let body ← stripStart? [':', ':'] text.toList
  let (head, message) ← splitFirst [':', ':'] body
  let (level, properties) ← splitFirst [' '] head
  let fields ← (properties.splitOn ',').mapM readField?
  let title ← fields.lookup "title"
  return {
    level := String.ofList level
    path := fields.lookup "file"
    line := number? fields "line"
    endLine := number? fields "endLine"
    column := number? fields "col"
    endColumn := number? fields "endColumn"
    title := title
    message := String.ofList (unescape message) }

/-- What the annotation for a finding shows of it. -/
def shown (os : Option String) (f : FindingView) : Annotation where
  level := level f.severity
  path := f.location.map (·.path.text)
  line := f.location.bind Location.line
  endLine := f.location.bind Location.endLine
  column := f.location.bind Location.column
  endColumn := f.location.bind Location.endColumn
  title := qualifiedTitle os (title f.code)
  message := f.message

/-! ## The words of an annotation -/

/-- The words for severities. -/
def levelWords : List (Severity × String) :=
  [(.error, "error"), (.warning, "warning"), (.info, "notice")]

/-- The titles for codes. -/
def titleWords : List (String × String) :=
  [("parse_error", "Parsing error"), ("expected_invalid", "Invalid syntax"),
    ("allowlist_violation", "Unexpectedly valid syntax"),
    ("unrecognized_output", "Unrecognized parser output")]

/-- What stands behind a title: the label of the operating system, unless it is empty. -/
def titleSuffix : Option String → String
  | none => ""
  | some label => if label = "" then "" else " (" ++ label ++ ")"

/-- An annotation shows a finding, with a title that is qualified by a label. -/
structure Shows (os : Option String) (f : FindingView) (a : Annotation) : Prop where
  level : (f.severity, a.level) ∈ levelWords
  path : a.path = f.location.map (·.path.text)
  line : a.line = f.location.bind Location.line
  endLine : a.endLine = f.location.bind Location.endLine
  column : a.column = f.location.bind Location.column
  endColumn : a.endColumn = f.location.bind Location.endColumn
  title : a.title = (titleWords.lookup f.code).getD "parseguard" ++ titleSuffix os
  message : a.message = f.message

theorem level_mem_levelWords (s : Severity) : (s, level s) ∈ levelWords := by
  cases s <;> decide

/-- Different severities have different words. -/
theorem level_injective : Function.Injective level := by
  intro s s' h
  cases s <;> cases s' <;> first | rfl | exact absurd h (by decide)

theorem title_eq_lookup (code : String) :
    title code = (titleWords.lookup code).getD "parseguard" := by
  unfold title titleWords
  simp only [List.lookup_cons, List.lookup_nil, Finding.parseErrorCode,
    Finding.expectedInvalidCode, Finding.allowlistViolationCode, Finding.unrecognizedOutputCode]
  grind

theorem qualifiedTitle_eq_append (os : Option String) (title : String) :
    qualifiedTitle os title = title ++ titleSuffix os := by
  cases os with
  | none => exact String.append_empty.symm
  | some label =>
    simp only [qualifiedTitle, titleSuffix, String.isEmpty_iff]
    split
    · exact String.append_empty.symm
    · rw [← String.append_assoc, ← String.append_assoc]

theorem shows_shown (os : Option String) (f : FindingView) : Shows os f (shown os f) where
  level := level_mem_levelWords f.severity
  path := rfl
  line := rfl
  endLine := rfl
  column := rfl
  endColumn := rfl
  title := by
    show qualifiedTitle os (WorkflowCommand.title f.code) = _
    rw [qualifiedTitle_eq_append, title_eq_lookup]
  message := rfl

/-! ## The fields of an annotation -/

/-- A number by its name, if there is one. -/
def namedNumber (name : String) (n : Option UInt32) : List (String × String) :=
  (n.map fun n => (name, coordinateText n)).toList

/-- What the fields of an annotation hold, by their names. -/
def namedValues (os : Option String) (f : FindingView) : List (String × String) :=
  (f.location.map fun l => ("file", l.path.text) :: namedNumber "line" l.line
    ++ namedNumber "endLine" l.endLine ++ namedNumber "col" l.column
    ++ namedNumber "endColumn" l.endColumn).getD []
  ++ [("title", qualifiedTitle os (title f.code))]

/-- The names of fields. -/
def fieldNames : List String := ["file", "line", "endLine", "col", "endColumn", "title"]

/-- The digits of a number need no escapes. -/
theorem escapeProperty_coordinateText (n : UInt32) :
    escapeProperty (coordinateText n) = coordinateText n := by
  have hdigits : ∀ c ∈ Nat.toDigits 10 n.toNat, escapePropertyChar c = [c] := by
    intro c hc
    have hdigit := Nat.isDigit_of_mem_toDigits (by decide) (by decide) hc
    have hnone : ∀ d ∈ special, ¬d.isDigit = true := by decide
    exact escapePropertyChar_eq_self fun h => hnone c h hdigit
  rw [coordinateText, Text.natural, escapeProperty, String.toList_ofList,
    List.flatMap_congr hdigits, List.flatMap_singleton']

theorem numberField_eq_map (name : String) (n : Option UInt32) :
    numberField name n = (namedNumber name n).map fun v => field v.1 (escapeProperty v.2) := by
  cases n with
  | none => rfl
  | some n =>
    simp [numberField, namedNumber, escapeProperty_coordinateText]

/-- Each field is a name and a value that is escaped. -/
theorem fields_eq_map (os : Option String) (f : FindingView) :
    fields os f = (namedValues os f).map fun v => field v.1 (escapeProperty v.2) := by
  unfold fields namedValues locationFields
  cases f.location <;> simp [numberField_eq_map]

theorem mem_fieldNames {os : Option String} {f : FindingView} {v : String × String}
    (h : v ∈ namedValues os f) : v.1 ∈ fieldNames := by
  have hnumber : ∀ name n, v ∈ namedNumber name n → v.1 = name := by
    intro name n hv
    cases n with
    | none => cases hv
    | some n => rw [List.mem_singleton.1 hv]
  unfold namedValues at h
  rw [List.mem_append, List.mem_singleton] at h
  rcases h with h | rfl
  · cases hl : f.location with
    | none =>
      rw [hl] at h
      cases h
    | some l =>
      simp only [hl, Option.map_some, Option.getD_some, List.mem_append, List.mem_cons] at h
      rcases h with (((rfl | h) | h) | h) | h
      · exact (by decide : "file" ∈ fieldNames)
      all_goals rw [hnumber _ _ h]; decide
  · exact (by decide : "title" ∈ fieldNames)

/-- A field is read as its name and its value. -/
theorem readField?_field {name : String} (hname : '=' ∉ name.toList) (value : String) :
    readField? (field name (escapeProperty value)).toList = some (name, value) := by
  have hcut : splitFirst ['='] (name.toList ++ '=' :: (escapeProperty value).toList) =
      some (name.toList, (escapeProperty value).toList) :=
    splitFirst_singleton_eq_some_iff.2 ⟨rfl, hname⟩
  have htext : (field name (escapeProperty value)).toList =
      name.toList ++ '=' :: (escapeProperty value).toList := by
    simp [field]
  rw [readField?, htext, hcut, Option.map_some]
  simp only [unescape_escapeProperty, String.ofList_toList]

/-- Neither separators nor line ends stand in a field. -/
theorem not_mem_field {os : Option String} {f : FindingView} {s : String} (hs : s ∈ fields os f)
    {c : Char} (hc : c ∈ [':', ',', '\n', '\r']) : c ∉ s.toList := by
  rw [fields_eq_map] at hs
  obtain ⟨v, hv, rfl⟩ := List.mem_map.1 hs
  have hname : ∀ name ∈ fieldNames, ∀ c ∈ [':', ',', '\n', '\r'], c ∉ name.toList := by
    decide +kernel
  have hequals : ∀ c ∈ [':', ',', '\n', '\r'], c ≠ '=' := by decide
  have htext : (field v.1 (escapeProperty v.2)).toList =
      v.1.toList ++ '=' :: (escapeProperty v.2).toList := by
    simp [field]
  rw [htext, List.mem_append, List.mem_cons]
  rintro (h | h | h)
  · exact hname v.1 (mem_fieldNames hv) c hc h
  · exact hequals c hc h
  · exact not_mem_escapeProperty hc v.2 h

/-- The fields are found again between their commas. -/
theorem mapM_readField? (os : Option String) (f : FindingView) :
    (([','].intercalate ((fields os f).map String.toList)).splitOn ',').mapM readField? =
      some (namedValues os f) := by
  have hcomma : ∀ s ∈ (fields os f).map String.toList, ',' ∉ s := by
    intro s hs
    obtain ⟨t, ht, rfl⟩ := List.mem_map.1 hs
    exact not_mem_field ht (by decide)
  have hne : (fields os f).map String.toList ≠ [] := by simp [fields]
  have hnames : ∀ name ∈ fieldNames, '=' ∉ name.toList := by decide +kernel
  have hread : ∀ vs : List (String × String), (∀ v ∈ vs, v.1 ∈ fieldNames) →
      (vs.map fun v => (field v.1 (escapeProperty v.2)).toList).mapM readField? = some vs := by
    intro vs hvs
    induction vs with
    | nil => rfl
    | cons v vs ih =>
      have hrest := ih fun w hw => hvs w (List.mem_cons_of_mem v hw)
      have hfirst := readField?_field (hnames v.1 (hvs v List.mem_cons_self)) v.2
      simp only [List.map_cons, List.mapM_cons, hfirst, hrest, Option.bind_eq_bind,
        Option.bind_some]
      rfl
  rw [List.splitOn_intercalate ',' hcomma hne, fields_eq_map, List.map_map]
  exact hread _ fun v => mem_fieldNames

theorem lookup_namedNumber (name name' : String) (n : Option UInt32) :
    (namedNumber name n).lookup name' = if name' = name then n.map coordinateText else none := by
  cases n with
  | none => simp [namedNumber]
  | some n =>
    by_cases h : name' = name
    · simp [namedNumber, h]
    · simp [namedNumber, List.lookup_cons, beq_false_of_ne h, h]

/-- The digits of a coordinate are read as that coordinate. -/
theorem number?_of_lookup {fields : List (String × String)} {name : String} {n : Option UInt32}
    (h : fields.lookup name = n.map coordinateText) : number? fields name = n := by
  unfold number?
  rw [h]
  cases n with
  | none => rfl
  | some n =>
    have hread : naturalBelow? UInt32.size (coordinateText n).toList = some n.toNat := by
      rw [coordinateText, Text.natural, String.toList_ofList]
      exact naturalBelow?_eq_some_iff.2 ⟨numeral_toDigits n.toNat, n.toNat_lt_size⟩
    simp [hread]

/-- What a reader finds under the name of each field. -/
theorem lookup_namedValues (os : Option String) (f : FindingView) :
    (namedValues os f).lookup "file" = f.location.map (·.path.text) ∧
      number? (namedValues os f) "line" = f.location.bind Location.line ∧
      number? (namedValues os f) "endLine" = f.location.bind Location.endLine ∧
      number? (namedValues os f) "col" = f.location.bind Location.column ∧
      number? (namedValues os f) "endColumn" = f.location.bind Location.endColumn ∧
      (namedValues os f).lookup "title" = some (qualifiedTitle os (title f.code)) := by
  refine ⟨?_, number?_of_lookup ?_, number?_of_lookup ?_, number?_of_lookup ?_,
    number?_of_lookup ?_, ?_⟩
  all_goals
    unfold namedValues
    cases f.location <;> simp [List.lookup_append, List.lookup_cons, lookup_namedNumber]

/-- An annotation is put together from its level, its fields and its message. -/
theorem toList_line (os : Option String) (f : FindingView) :
    (line os f).toList = [':', ':'] ++ ((level f.severity).toList ++ ' ' ::
      [','].intercalate ((fields os f).map String.toList) ++ [':', ':'] ++
        (escapeData f.message).toList) := by
  simp [line, String.toList_intercalate]

/-- An annotation is read as what it shows of its finding. -/
theorem read?_line (os : Option String) (f : FindingView) :
    read? (line os f) = some (shown os f) := by
  let properties := [','].intercalate ((fields os f).map String.toList)
  -- No colon stands in front of the message but the two in front of it, so it is cut off there.
  have hlevel : ∀ c ∈ [' ', ':'], c ∉ (level f.severity).toList := by
    cases f.severity <;> decide +kernel
  have hcolon : ':' ∉ (level f.severity).toList ++ ' ' :: properties := by
    rw [List.mem_append, List.mem_cons]
    rintro (h | h | h)
    · exact hlevel ':' (by decide) h
    · exact absurd h (by decide)
    · rcases mem_intercalate h with h | ⟨s, hs, hc⟩
      · exact absurd h (by decide)
      · obtain ⟨t, ht, rfl⟩ := List.mem_map.1 hs
        exact not_mem_field ht (by decide) hc
  have hbody : stripStart? [':', ':'] (line os f).toList =
      some ((level f.severity).toList ++ ' ' :: properties ++ [':', ':'] ++
        (escapeData f.message).toList) :=
    stripStart?_eq_some_iff.2 (toList_line os f)
  have hhead : splitFirst [' '] ((level f.severity).toList ++ ' ' :: properties) =
      some ((level f.severity).toList, properties) :=
    splitFirst_singleton_eq_some_iff.2 ⟨rfl, hlevel ' ' (by decide)⟩
  have hfields : (properties.splitOn ',').mapM readField? = some (namedValues os f) :=
    mapM_readField? os f
  obtain ⟨hpath, hline, hendLine, hcolumn, hendColumn, htitle⟩ := lookup_namedValues os f
  unfold read?
  simp only [hbody, splitFirst_of_not_mem hcolon, hhead, hfields, hpath, hline, hendLine, hcolumn,
    hendColumn, htitle, Option.bind_eq_bind, Option.bind_some, unescape_escapeData,
    String.ofList_toList]
  rfl

/-- An annotation is read, and what is read shows its finding. -/
theorem exists_shows (os : Option String) (f : FindingView) :
    ∃ a, read? (line os f) = some a ∧ Shows os f a :=
  ⟨shown os f, read?_line os f, shows_shown os f⟩

/-- An annotation is made of what it shows, and what it shows is read back.  So annotations are the
same exactly if all that they show is the same. -/
theorem line_eq_iff {os os' : Option String} {f f' : FindingView} :
    line os f = line os' f' ↔
      f.severity = f'.severity ∧
        f.location.map (·.path.text) = f'.location.map (·.path.text) ∧
        f.location.bind Location.line = f'.location.bind Location.line ∧
        f.location.bind Location.endLine = f'.location.bind Location.endLine ∧
        f.location.bind Location.column = f'.location.bind Location.column ∧
        f.location.bind Location.endColumn = f'.location.bind Location.endColumn ∧
        qualifiedTitle os (title f.code) = qualifiedTitle os' (title f'.code) ∧
        f.message = f'.message := by
  constructor
  · intro h
    have hread : some (shown os f) = some (shown os' f') := by
      rw [← read?_line, h, read?_line]
    have hshown := Option.some.inj hread
    exact ⟨level_injective (congrArg Annotation.level hshown), congrArg Annotation.path hshown,
      congrArg Annotation.line hshown, congrArg Annotation.endLine hshown,
      congrArg Annotation.column hshown, congrArg Annotation.endColumn hshown,
      congrArg Annotation.title hshown, congrArg Annotation.message hshown⟩
  · rintro ⟨hlevel, hpath, hline, hendLine, hcolumn, hendColumn, htitle, hmessage⟩
    have hlocation : f.location.map locationFields = f'.location.map locationFields := by
      cases hl : f.location <;> cases hl' : f'.location <;>
        simp_all [locationFields]
    unfold line fields
    rw [hlevel, hlocation, htitle, hmessage]

/-- Nothing in an annotation ends a line. -/
theorem not_mem_line {c : Char} (hc : c ∈ ['\n', '\r']) (os : Option String) (f : FindingView) :
    c ∉ (line os f).toList := by
  have hfixed : ∀ c ∈ ['\n', '\r'], c ∉ [':', ':'] ∧ c ≠ ' ' ∧ c ∉ [','] := by decide
  have hlevel : ∀ c ∈ ['\n', '\r'], c ∉ (level f.severity).toList := by
    cases f.severity <;> decide +kernel
  have hfields : ∀ c ∈ ['\n', '\r'], c ∈ [':', ',', '\n', '\r'] := by decide
  obtain ⟨hcolons, hblank, hcomma⟩ := hfixed c hc
  rw [toList_line]
  simp only [List.mem_append, List.mem_cons (a := c) (b := ' ')]
  rintro (h | ((h | h | h) | h) | h)
  · exact hcolons h
  · exact hlevel c hc h
  · exact hblank h
  · rcases mem_intercalate h with h | ⟨s, hs, hmem⟩
    · exact hcomma h
    · obtain ⟨t, ht, rfl⟩ := List.mem_map.1 hs
      exact not_mem_field ht (hfields c hc) hmem
  · exact hcolons h
  · exact not_mem_escapeData hc f.message h

end ParseAudit.WorkflowCommand
