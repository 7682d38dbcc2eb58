import ParseAudit.Proofs.Audit.Rearranged
import ParseAudit.Proofs.Region
import ParseAudit.Proofs.RepoPath.Twice
/-!
# What a fingerprint identifies

A fingerprint is the digest of four fields, joined by `|`.  The check and the code hold no `|`, and
the coordinates can be cut off from the end, so they can be told from the text.  A path and a label
are free texts, and only `|` stands between them: where both hold one, what belongs to the path and
what to the label is lost.

* `mem_findings_iff`: the findings of an evaluation, each with the `Subject` that it is about;
* `Subject.text_eq_iff`: which subjects share a text;
* `Subject.text_inj_of_path_eq`, `Subject.text_inj_of_bar_not_mem`: where none do;
* `fingerprint_text_eq_iff`: both together;
* `fingerprint_shared`: two findings about different subjects with one fingerprint.
-/

namespace ParseAudit

open Chars

variable {records : List Record} {invalid : FileSet}

namespace Finding

/-- What a finding of an evaluation is about. -/
inductive Subject where
  /-- An error node in a file, which is on the allowlist or not. -/
  | errorNode (listed : Bool) (path : RepoPath) (node : Region)
  /-- A file of the allowlist without an error. -/
  | cleanFile (path : RepoPath)
  deriving DecidableEq

namespace Subject

/-- The code of the findings about a subject. -/
def code : Subject → String
  | errorNode false _ _ => parseErrorCode
  | errorNode true _ _ => expectedInvalidCode
  | cleanFile _ => allowlistViolationCode

def path : Subject → RepoPath
  | errorNode _ path _ => path
  | cleanFile path => path

def node? : Subject → Option Region
  | errorNode _ _ node => some node
  | cleanFile _ => none

/-- The text of the node, which is empty if there is none. -/
def nodeText (s : Subject) : String := (s.node?.map Region.identity).getD ""

/-- The text whose digest is the fingerprint of the findings about a subject. -/
def text (s : Subject) : String := identity syntaxCheck s.code s.path.text s.nodeText

/-- Two error nodes that differ in where the path ends and the label starts: what is moved stands
behind a `|` at the end of one path, and in front of a `|` at the start of the other label. -/
inductive Shifted : Subject → Subject → Prop where
  | intro (listed : Bool) (path moved : String) (node : Region) :
      Shifted (errorNode listed ⟨path⟩ { node with label := moved ++ "|" ++ node.label })
        (errorNode listed ⟨path ++ "|" ++ moved⟩ node)

/-! ## The text of a subject -/

theorem toList_text (s : Subject) :
    s.text.toList = syntaxCheck.toList ++
      '|' :: (s.code.toList ++ '|' :: (s.path.text.toList ++ '|' :: s.nodeText.toList)) := by
  simp [text, identity]

theorem bar_not_mem_code (s : Subject) : '|' ∉ s.code.toList := by
  rcases s with ⟨listed | listed, path, node⟩ | path
  · show '|' ∉ parseErrorCode.toList
    decide
  · show '|' ∉ expectedInvalidCode.toList
    decide
  · show '|' ∉ allowlistViolationCode.toList
    decide

/-- The check and the code of a subject can be told from its text. -/
theorem text_eq_iff_code {s s' : Subject} :
    s.text = s'.text ↔ s.code = s'.code ∧
      s.path.text.toList ++ '|' :: s.nodeText.toList =
        s'.path.text.toList ++ '|' :: s'.nodeText.toList := by
  rw [← String.toList_inj, toList_text, toList_text, List.append_cancel_left_eq,
    List.cons_inj_right, append_cons_inj_of_not_mem (bar_not_mem_code s) (bar_not_mem_code s'),
    String.toList_inj]

theorem code_errorNode_inj {listed listed' : Bool} {path path' : RepoPath} {node node' : Region} :
    (errorNode listed path node).code = (errorNode listed' path' node').code ↔
      listed = listed' := by
  cases listed <;> cases listed' <;> simp [code, parseErrorCode, expectedInvalidCode]

theorem code_errorNode_ne {listed : Bool} {path path' : RepoPath} {node : Region} :
    (errorNode listed path node).code ≠ (cleanFile path').code := by
  cases listed <;>
    simp [code, parseErrorCode, expectedInvalidCode, allowlistViolationCode]

/-- Of the text about an error node the extent can be told apart from the rest. -/
theorem text_errorNode_eq_iff {listed listed' : Bool} {path path' : RepoPath}
    {node node' : Region} :
    (errorNode listed path node).text = (errorNode listed' path' node').text ↔
      listed = listed' ∧ node.extent = node'.extent ∧
        path.text.toList ++ '|' :: node.label.toList =
          path'.text.toList ++ '|' :: node'.label.toList := by
  have hfront : ∀ (p : RepoPath) (t : List Char),
      p.text.toList ++ '|' :: t = (p.text.toList ++ ['|']) ++ t := by
    intro p t
    rw [List.append_assoc, List.singleton_append]
  rw [text_eq_iff_code, code_errorNode_inj, and_comm (a := node.extent = node'.extent), hfront path,
    hfront path', ← Region.append_identity_eq_iff, ← hfront, ← hfront]
  rfl

/-- What stands between two bars is moved from the label to the path. -/
theorem shifted_of_append {listed : Bool} {path path' : RepoPath} {node node' : Region}
    {moved : List Char} (hextent : node.extent = node'.extent)
    (hpath : path'.text.toList = path.text.toList ++ '|' :: moved)
    (hlabel : node.label.toList = moved ++ '|' :: node'.label.toList) :
    Shifted (errorNode listed path node) (errorNode listed path' node') := by
  have hpath' : path' = ⟨path.text ++ "|" ++ String.ofList moved⟩ := by
    apply RepoPath.eq_of_toList_eq
    rw [hpath]
    simp
  have hnode : node = { node' with label := String.ofList moved ++ "|" ++ node'.label } := by
    apply Region.eq_of_extent_eq
    · rw [← String.toList_inj, hlabel]
      simp
    · exact hextent
  rw [hpath', hnode]
  exact .intro listed path.text (String.ofList moved) node'

/-- Subjects that are shifted against one another have one text. -/
theorem Shifted.text_eq {s s' : Subject} (h : Shifted s s') : s.text = s'.text := by
  obtain ⟨listed, path, moved, node⟩ := h
  rw [text_errorNode_eq_iff]
  refine ⟨rfl, rfl, ?_⟩
  simp

/-- Two subjects have one text only if they are the same or shifted against one another. -/
theorem text_eq_iff {s s' : Subject} :
    s.text = s'.text ↔ s = s' ∨ Shifted s s' ∨ Shifted s' s := by
  constructor
  · intro h
    rcases s with ⟨listed, path, node⟩ | path
    · rcases s' with ⟨listed', path', node'⟩ | path'
      · obtain ⟨rfl, hextent, happ⟩ := text_errorNode_eq_iff.1 h
        rcases append_cons_eq_iff.1 happ with ⟨hpath, hlabel⟩ | ⟨moved, hpath, hlabel⟩ |
          ⟨moved, hpath, hlabel⟩
        · left
          rw [RepoPath.eq_of_toList_eq hpath,
            Region.eq_of_extent_eq (String.toList_inj.1 hlabel) hextent]
        · exact .inr (.inl (shifted_of_append hextent hpath hlabel))
        · exact .inr (.inr (shifted_of_append hextent.symm hpath hlabel))
      · exact absurd (text_eq_iff_code.1 h).1 code_errorNode_ne
    · rcases s' with ⟨listed', path', node'⟩ | path'
      · exact absurd (text_eq_iff_code.1 h).1.symm code_errorNode_ne
      · left
        have hpath : path.text.toList ++ ['|'] = path'.text.toList ++ ['|'] :=
          (text_eq_iff_code.1 h).2
        rw [RepoPath.eq_of_toList_eq (List.append_cancel_right hpath)]
  · rintro (rfl | h | h)
    · rfl
    · exact h.text_eq
    · exact h.text_eq.symm

/-- Of two subjects that are shifted against one another the one with the longer path holds a bar
there. -/
theorem Shifted.path {s s' : Subject} (h : Shifted s s') :
    '|' ∈ s'.path.text.toList ∧ s.path.text.length < s'.path.text.length := by
  obtain ⟨listed, path, moved, node⟩ := h
  simp only [Subject.path, String.toList_append, String.length_append]
  have hbar : "|".length = 1 := rfl
  constructor
  · simp
  · omega

/-- Within one file the text tells subjects apart. -/
theorem text_inj_of_path_eq {s s' : Subject} (h : s.path = s'.path) :
    s.text = s'.text ↔ s = s' := by
  rw [text_eq_iff]
  constructor
  · rintro (heq | hshifted | hshifted)
    · exact heq
    · exact absurd hshifted.path.2 (by rw [h]; exact Nat.lt_irrefl _)
    · exact absurd hshifted.path.2 (by rw [h]; exact Nat.lt_irrefl _)
  · exact .inl

/-- The text tells subjects apart as long as no path holds a bar. -/
theorem text_inj_of_bar_not_mem {s s' : Subject} (h : '|' ∉ s.path.text.toList)
    (h' : '|' ∉ s'.path.text.toList) : s.text = s'.text ↔ s = s' := by
  rw [text_eq_iff]
  constructor
  · rintro (heq | hshifted | hshifted)
    · exact heq
    · exact absurd hshifted.path.1 h'
    · exact absurd hshifted.path.1 h
  · exact .inl

end Subject

/-! ## The findings of an evaluation -/

/-- The findings that some records and an allowlist give, with what each of them is about. -/
inductive GivenFor (records : List Record) (invalid : FileSet) : Subject → Finding → Prop where
  | parseError {r : Record} {node : Region} (hr : r ∈ records) (hnode : r.region = some node)
      (hlisted : r.file ∉ invalid) :
      GivenFor records invalid (.errorNode false r.file node) (parseError r)
  | expectedInvalid {r : Record} {node : Region} (hr : r ∈ records) (hnode : r.region = some node)
      (hlisted : r.file ∈ invalid) :
      GivenFor records invalid (.errorNode true r.file node) (expectedInvalid r)
  | allowlistViolation {r : Record} (hr : r ∈ records) (hlisted : r.file ∈ invalid)
      (hclean : ¬Erring records r.file) :
      GivenFor records invalid (.cleanFile r.file) (allowlistViolation r.file)

/-- A finding that says what it is about: the code, the path, the node, and the digest of the text
for all of them. -/
structure Describes (finding : Finding) (s : Subject) : Prop where
  checkId : finding.checkId = "syntax.parse"
  code : finding.code = s.code
  path : finding.location.map Location.path = some s.path
  node : ∀ node ∈ s.node?, finding.location = some (node.location s.path) ∧
    ∃ raw, finding.data = .obj [("label", .str node.label), ("raw", .str raw)]
  fingerprint : finding.fingerprint = some (Sha256.hex s.text)

/-- The finding for an error node describes it. -/
theorem describes_ofErrorNode {r : Record} {node : Region} (hnode : r.region = some node)
    (severity : Severity) (title : String) (listed : Bool) :
    (ofErrorNode severity (Subject.errorNode listed r.file node).code title r).Describes
      (.errorNode listed r.file node) where
  checkId := rfl
  code := rfl
  path := path_ofErrorNode severity _ title r
  node := by
    rintro _ ⟨⟩
    unfold ofErrorNode labelOf
    rw [hnode]
    exact ⟨rfl, r.raw, rfl⟩
  fingerprint := by
    unfold ofErrorNode nodeOf
    rw [hnode]
    rfl

theorem GivenFor.describes {s : Subject} {finding : Finding}
    (h : GivenFor records invalid s finding) : finding.Describes s := by
  cases h with
  | parseError hr hnode hlisted => exact describes_ofErrorNode hnode .error "Parsing error" false
  | expectedInvalid hr hnode hlisted =>
    exact describes_ofErrorNode hnode .warning "Invalid syntax (expected)" true
  | allowlistViolation hr hlisted hclean => exact ⟨rfl, rfl, rfl, nofun, rfl⟩

/-- The findings for the errors of a file are one for each error node. -/
theorem mem_map_errorsOf_iff {f : RepoPath} {make : Record → Finding} {finding : Finding} :
    finding ∈ (errorsOf records f).map make ↔
      ∃ r node, r ∈ records ∧ r.region = some node ∧ r.file = f ∧ finding = make r := by
  unfold errorsOf Record.hasError
  simp only [List.mem_map, List.mem_filter, Bool.and_eq_true, decide_eq_true_eq,
    Option.isSome_iff_exists]
  constructor
  · rintro ⟨r, ⟨hr, hfile, node, hnode⟩, rfl⟩
    exact ⟨r, node, hr, hnode, hfile, rfl⟩
  · rintro ⟨r, node, hr, hnode, hfile, rfl⟩
    exact ⟨r, ⟨hr, hfile, node, hnode⟩, rfl⟩

/-- The findings for a file, by whether it is on the allowlist. -/
theorem mem_ofFile_iff {f : RepoPath} {finding : Finding} :
    finding ∈ ofFile records invalid f ↔
      f ∉ invalid ∧ finding ∈ (errorsOf records f).map parseError ∨
        f ∈ invalid ∧ finding ∈ (errorsOf records f).map expectedInvalid ∨
          f ∈ invalid ∧ ¬Erring records f ∧ finding = allowlistViolation f := by
  unfold ofFile
  by_cases hlisted : f ∈ invalid
  · by_cases herring : Erring records f
    · rw [FileSet.contains_iff.2 hlisted, anyError_iff.2 herring]
      simp [Outcome.ofFacts, hlisted, herring]
    · rw [FileSet.contains_iff.2 hlisted, Bool.eq_false_iff.2 fun h => herring (anyError_iff.1 h)]
      simp [Outcome.ofFacts, hlisted, herring, errorsOf_eq_nil_iff.2 herring]
  · by_cases herring : Erring records f
    · rw [Bool.eq_false_iff.2 fun h => hlisted (FileSet.contains_iff.1 h), anyError_iff.2 herring]
      simp [Outcome.ofFacts, hlisted]
    · rw [Bool.eq_false_iff.2 fun h => hlisted (FileSet.contains_iff.1 h),
        Bool.eq_false_iff.2 fun h => herring (anyError_iff.1 h)]
      simp [Outcome.ofFacts, hlisted, errorsOf_eq_nil_iff.2 herring]

end Finding

namespace Evaluation

open Finding

/-- The findings of an evaluation are those that are given for some subject. -/
theorem mem_findings_iff {finding : Finding} :
    finding ∈ (ofRecords records invalid).findings ↔ ∃ s, GivenFor records invalid s finding := by
  rw [findings_eq_flatMap, List.mem_flatMap]
  simp only [mem_filesOf, mem_ofFile_iff, mem_map_errorsOf_iff]
  constructor
  · rintro ⟨f, ⟨r, hr, hfile⟩, ⟨hlisted, r', node, hr', hnode, rfl, rfl⟩ |
      ⟨hlisted, r', node, hr', hnode, rfl, rfl⟩ | ⟨hlisted, hclean, rfl⟩⟩
    · exact ⟨_, .parseError hr' hnode hlisted⟩
    · exact ⟨_, .expectedInvalid hr' hnode hlisted⟩
    · subst hfile
      exact ⟨_, .allowlistViolation hr hlisted hclean⟩
  · rintro ⟨s, h⟩
    cases h with
    | @parseError r node hr hnode hlisted =>
      exact ⟨r.file, ⟨r, hr, rfl⟩, .inl ⟨hlisted, r, node, hr, hnode, rfl, rfl⟩⟩
    | @expectedInvalid r node hr hnode hlisted =>
      exact ⟨r.file, ⟨r, hr, rfl⟩, .inr (.inl ⟨hlisted, r, node, hr, hnode, rfl, rfl⟩)⟩
    | @allowlistViolation r hr hlisted hclean =>
      exact ⟨r.file, ⟨r, hr, rfl⟩, .inr (.inr ⟨hlisted, hclean, rfl⟩)⟩

/-- What a fingerprint identifies.  Every finding of an evaluation is about a subject, which it
describes, and its fingerprint is the digest of the text for that subject.  The text tells subjects
apart except for one case: error nodes of one kind and one extent, where what stands between two `|`
belongs to the path of the one and to the label of the other. -/
theorem fingerprint_text_eq_iff (records : List Record) (invalid : FileSet) :
    (∀ finding, finding ∈ (ofRecords records invalid).findings ↔
      ∃ s, GivenFor records invalid s finding) ∧
    (∀ s finding, GivenFor records invalid s finding → finding.Describes s) ∧
    ∀ s s' : Subject, s.text = s'.text ↔ s = s' ∨ s.Shifted s' ∨ s'.Shifted s := by
  refine ⟨?_, ?_, ?_⟩
  · intro finding
    exact mem_findings_iff
  · intro s finding h
    exact h.describes
  · intro s s'
    exact Subject.text_eq_iff

/-- Two error nodes in one file, one of them with a label that looks like another node.  Their
findings have different texts. -/
theorem fingerprint_text_eq_iff_odd_label :
    let node : Region := ⟨1, 1, 1, 2, "ERROR"⟩
    let odd : Region := ⟨1, 1, 1, 2, "ERROR [1, 1] - [1, 2]|x"⟩
    let records : List Record := [⟨⟨"a|b"⟩, some node, "1"⟩, ⟨⟨"a|b"⟩, some odd, "2"⟩]
    let invalid : FileSet := .ofList [⟨"a|b"⟩]
    ∃ finding finding' : Finding, ∃ s s' : Subject,
      finding ∈ (ofRecords records invalid).findings ∧
        finding' ∈ (ofRecords records invalid).findings ∧ finding.Describes s ∧
        finding'.Describes s' ∧ s.text ≠ s'.text := by
  intro node odd records invalid
  obtain ⟨hfindings, hdescribes, htext⟩ := fingerprint_text_eq_iff records invalid
  have hlisted : (⟨"a|b"⟩ : RepoPath) ∈ invalid := by decide +kernel
  have h : GivenFor records invalid (.errorNode true ⟨"a|b"⟩ node) (.expectedInvalid records[0]) :=
    .expectedInvalid List.mem_cons_self rfl hlisted
  have h' : GivenFor records invalid (.errorNode true ⟨"a|b"⟩ odd) (.expectedInvalid records[1]) :=
    .expectedInvalid (List.mem_cons_of_mem _ List.mem_cons_self) rfl hlisted
  refine ⟨_, _, _, _, (hfindings _).2 ⟨_, h⟩, (hfindings _).2 ⟨_, h'⟩, hdescribes _ _ h,
    hdescribes _ _ h', ?_⟩
  rw [Ne, htext]
  rintro (heq | hshifted | hshifted)
  · exact absurd heq (by decide)
  · exact Nat.lt_irrefl _ hshifted.path.2
  · exact Nat.lt_irrefl _ hshifted.path.2

/-- Two findings about different nodes in different files have one text and so one fingerprint. -/
theorem fingerprint_shared :
    let records : List Record := [⟨⟨"a|b"⟩, some ⟨1, 1, 1, 2, "c"⟩, "a|b (c [0, 0] - [0, 1])"⟩,
      ⟨⟨"a"⟩, some ⟨1, 1, 1, 2, "b|c"⟩, "a (b|c [0, 0] - [0, 1])"⟩]
    let invalid : FileSet := .ofList []
    ∃ finding finding' : Finding, ∃ s s' : Subject,
      finding ∈ (ofRecords records invalid).findings ∧
        finding' ∈ (ofRecords records invalid).findings ∧
        GivenFor records invalid s finding ∧ GivenFor records invalid s' finding' ∧
        s.path ≠ s'.path ∧ s.node?.map Region.label ≠ s'.node?.map Region.label ∧
        s.text = s'.text ∧ finding.fingerprint = finding'.fingerprint := by
  intro records invalid
  have hlisted : ∀ f, f ∉ invalid := by
    intro f hf
    rw [FileSet.mem_ofList] at hf
    cases hf
  have h : GivenFor records invalid (.errorNode false ⟨"a|b"⟩ ⟨1, 1, 1, 2, "c"⟩)
      (.parseError records[0]) := .parseError List.mem_cons_self rfl (hlisted _)
  have h' : GivenFor records invalid (.errorNode false ⟨"a"⟩ ⟨1, 1, 1, 2, "b|c"⟩)
      (.parseError records[1]) :=
    .parseError (List.mem_cons_of_mem _ List.mem_cons_self) rfl (hlisted _)
  have hshifted : Subject.Shifted (.errorNode false ⟨"a"⟩ ⟨1, 1, 1, 2, "b|c"⟩)
      (.errorNode false ⟨"a|b"⟩ ⟨1, 1, 1, 2, "c"⟩) := .intro false "a" "b" ⟨1, 1, 1, 2, "c"⟩
  have htext := hshifted.text_eq.symm
  refine ⟨_, _, _, _, mem_findings_iff.2 ⟨_, h⟩, mem_findings_iff.2 ⟨_, h'⟩, h, h', by decide,
    by decide, htext, ?_⟩
  rw [h.describes.fingerprint, h'.describes.fingerprint, htext]

end Evaluation

end ParseAudit
