import ParseAudit.Proofs.Selection.Coverage
import ParseAudit.Proofs.Selection.Resolved
import ParseAudit.Proofs.Tree.Walking
/-!
# What a source means

A source that can be resolved stands for a set of files that is told by what its patterns pick, what
a walk finds, and what its list names.  Neither the order of patterns nor how often they are given
matters, nor whether they stand in the source or in its list.

* `findsFile_iff`: the files that a walk finds;
* `resolve_meaning`: the files that a source stands for;
* `resolve_linked_git`: a link named `.git`, which is entered as a base directory.
-/

namespace ParseAudit

theorem Octets.toText?_eq_some_iff {octets : Octets} {text : String} :
    toText? octets = some text ↔ octets = ofText text := by
  constructor
  · intro h
    unfold toText? String.fromUTF8? at h
    split at h
    · have hbytes : octets.toByteArray = text.toUTF8 := by
        rw [← Option.some.inj h]
        rfl
      rw [← toByteArray_ofText] at hbytes
      exact List.toByteArray_inj.1 hbytes
    · cases h
  · rintro rfl
    exact toText?_ofText text

theorem FileNode.isFile_iff {node : FileNode} :
    node.isFile = true ↔ ∃ content executable, node = .file content executable := by
  cases node with
  | file content executable => exact iff_of_true rfl ⟨content, executable, rfl⟩
  | link target => simp [isFile]
  | directory children => simp [isFile]

namespace Selection

/-! ## What a walk finds -/

/-- The base directory is passed over for its name, unless it is a link to a directory. -/
def SkipsBase (t : FileTree) (base : String) : Prop :=
  PathText.lastName? base = some ".git" ∧ ¬(t.isDirectory base = true ∧ namesLink t base = true)

/-- A file stands at the end of the names on the way, or a link there leads to one. -/
def LeadsToFile (t : FileTree) (place names : List FileName) (leaf : FileNode) : Prop :=
  leaf.isFile = true ∨ ∃ target name, leaf = .link target ∧ names.getLast? = some name ∧
    ∃ place' content executable, t.Leads .looking FileTree.maxLinks (place ++ names.dropLast)
      [.down name] (.found place' (.file content executable))

/-- A path under which a walk from a base directory finds a file. -/
def FindsFile (t : FileTree) (base f : String) : Prop :=
  ¬SkipsBase t base ∧ ∃ place node names leaf, t.spot base = .ok (.found place node) ∧
    node.Reaches names leaf ∧ LeadsToFile t place names leaf ∧
    Octets.ofText f = pathBeneath (Octets.ofText base) names

theorem leadsToFile_iff {t : FileTree} {place names : List FileName} {leaf : FileNode} :
    leadsToFile t place names leaf = true ↔ LeadsToFile t place names leaf := by
  unfold leadsToFile LeadsToFile
  cases leaf with
  | file content executable => exact iff_of_true rfl (.inl rfl)
  | directory children =>
    refine iff_of_false Bool.false_ne_true ?_
    rintro (hfile | ⟨_, _, hlink, _⟩)
    · cases hfile
    · cases hlink
  | link target =>
    simp only [← FileTree.follow_eq_ok_iff]
    cases names.getLast? with
    | none =>
      refine iff_of_false Bool.false_ne_true ?_
      rintro (hlink | ⟨_, _, _, hname, _⟩)
      · cases hlink
      · cases hname
    | some name =>
      dsimp only
      split
      · next place' node hspot =>
        rw [FileNode.isFile_iff]
        constructor
        · rintro ⟨content, executable, rfl⟩
          exact .inr ⟨target, name, rfl, rfl, place', content, executable, hspot⟩
        · rintro (hlink | ⟨_, _, _, ⟨⟩, _, content, executable, hfound⟩)
          · cases hlink
          · cases hspot.symm.trans hfound
            exact ⟨content, executable, rfl⟩
      · next hother =>
        refine iff_of_false Bool.false_ne_true ?_
        rintro (hlink | ⟨_, _, _, ⟨⟩, _, _, _, hfound⟩)
        · cases hlink
        · exact hother _ _ hfound

/-- A link leads to a file if what it is followed to is one. -/
theorem leadsToFile_link {t : FileTree} (place directory : List FileName) {name : FileName}
    {place' : List FileName} {node : FileNode}
    (h : t.Leads .looking FileTree.maxLinks (place ++ directory) [.down name]
      (.found place' node)) (target : Octets) :
    leadsToFile t place (directory ++ [name]) (.link target) = node.isFile := by
  unfold leadsToFile
  rw [List.getLast?_concat, List.dropLast_concat]
  dsimp only
  rw [FileTree.follow_of_leads h]

/-- The walk reaches nothing if the base directory is passed over. -/
theorem mem_leavesOf_iff {t : FileTree} {base : String} {place names : List FileName}
    {node leaf : FileNode} (h : t.spot base = .ok (.found place node)) :
    (names, leaf) ∈ leavesOf t base node ↔ ¬SkipsBase t base ∧ node.Reaches names leaf := by
  have hdirectory : t.isDirectory base = node.isDirectory := by
    unfold FileTree.isDirectory FileTree.nodeOf FileTree.nodeAt
    rw [show t.spotAt (Octets.ofText base) = _ from h]
    rfl
  have hname : ((PathText.lastName? base).any fun name =>
      Octets.ofText name == FileNode.skippedName) = true ↔
        PathText.lastName? base = some ".git" := by
    rw [Option.any_eq_true]
    constructor
    · rintro ⟨name, hlast, hskipped⟩
      rw [hlast, Octets.ofText_inj.1 (beq_iff_eq.1 hskipped)]
    · intro hlast
      exact ⟨".git", hlast, beq_self_eq_true _⟩
  have hskips : ((PathText.lastName? base).any (fun name =>
        Octets.ofText name == FileNode.skippedName) &&
      !(node.isDirectory && namesLink t base)) = true ↔ SkipsBase t base := by
    unfold SkipsBase
    rw [Bool.and_eq_true, hname, hdirectory, Bool.not_eq_true', ← Bool.not_eq_true,
      Bool.and_eq_true]
  unfold leavesOf
  dsimp only
  split
  · next hskipped => exact iff_of_false List.not_mem_nil fun hreach => hreach.1 (hskips.1 hskipped)
  · next hopen =>
    rw [FileNode.mem_leaves_iff]
    exact (and_iff_right fun hskipped => hopen (hskips.2 hskipped)).symm

/-- What the walk comes upon as files is what it finds. -/
theorem findsFile_iff {t : FileTree} {base f : String} :
    FindsFile t base f ↔ ∃ visit ∈ found t base, visit.isFile = true ∧
      visit.path = Octets.ofText f := by
  unfold FindsFile found visits
  cases hspot : t.spot base with
  | error e => exact iff_of_false (fun ⟨_, _, _, _, _, h, _⟩ => nomatch h) nofun
  | ok spot =>
    cases spot with
    | free place name => exact iff_of_false (fun ⟨_, _, _, _, _, h, _⟩ => nomatch h) nofun
    | found place node =>
      show _ ↔ ∃ visit ∈ (leavesOf t base node).map _, _
      constructor
      · rintro ⟨hopen, _, _, names, leaf, ⟨⟩, hreach, hfile, hpath⟩
        exact ⟨_, List.mem_map_of_mem ((mem_leavesOf_iff hspot).2 ⟨hopen, hreach⟩),
          leadsToFile_iff.2 hfile, hpath.symm⟩
      · rintro ⟨visit, hvisit, hfile, hpath⟩
        obtain ⟨⟨names, leaf⟩, hleaf, rfl⟩ := List.mem_map.1 hvisit
        obtain ⟨hopen, hreach⟩ := (mem_leavesOf_iff hspot).1 hleaf
        exact ⟨hopen, place, node, names, leaf, rfl, hreach, leadsToFile_iff.1 hfile, hpath.symm⟩

/-- The files that are known once the walk is over. -/
theorem mem_knownPaths_iff {t : FileTree} {base : String} {p : RepoPath} :
    p ∈ knownPaths base ((found t base).filter Visit.isFile) ↔
      ∃ f, FindsFile t base f ∧ p = .normalize f base := by
  unfold knownPaths
  simp only [List.mem_filterMap, List.mem_filter, findsFile_iff, Option.map_eq_some_iff,
    Octets.toText?_eq_some_iff]
  constructor
  · rintro ⟨visit, ⟨hvisit, hfile⟩, f, hf, rfl⟩
    exact ⟨f, ⟨visit, hvisit, hfile, hf⟩, rfl⟩
  · rintro ⟨f, ⟨visit, hvisit, hfile, hf⟩, rfl⟩
    exact ⟨visit, ⟨hvisit, hfile⟩, f, hf, rfl⟩

/-! ## What a source stands for -/

/-- The entries of the list file of a source: none if it names none or nothing is there, else the
lines of its text. -/
def Lists (t : FileTree) (base : String) (source : FileSource) (entries : List String) : Prop :=
  match source.listFile with
  | none => entries = []
  | some place =>
    let path := RepoPath.joinText base place
    t.isFile path = false ∧ entries = [] ∨
      t.isFile path = true ∧ ∃ text, t.readText path = .ok text ∧ entries = ListFile.entries text

theorem outcome_listEntries_iff {t : FileTree} {base : String} {source : FileSource}
    {entries : List String} :
    (listEntries t base source).outcome = .ok entries ↔ Lists t base source entries := by
  unfold listEntries Lists
  cases source.listFile with
  | none =>
    show Except.ok [] = Except.ok entries ↔ _
    rw [Except.ok.injEq, eq_comm]
  | some place =>
    dsimp only
    unfold ListFile.read
    cases hfile : t.isFile (RepoPath.joinText base place) with
    | false =>
      show Except.ok [] = Except.ok entries ↔ _
      rw [Except.ok.injEq, eq_comm]
      simp
    | true =>
      cases htext : t.readText (RepoPath.joinText base place) with
      | error e =>
        refine iff_of_false nofun ?_
        rintro (⟨h, -⟩ | ⟨-, _, h, -⟩)
        · cases h
        · cases h
      | ok text =>
        show Except.ok (ListFile.entries text) = Except.ok entries ↔ _
        rw [Except.ok.injEq, eq_comm]
        simp

theorem mem_listedFiles_iff {base : String} {source : FileSource} {entries : List String}
    {p : RepoPath} :
    p ∈ listedFiles base source entries ↔
      source.listKind = .paths ∧ ∃ e ∈ entries, p = .normalize (Text.trim e) base := by
  unfold listedFiles
  split
  · next hpaths =>
    rw [List.mem_map, and_iff_right hpaths]
    simp only [eq_comm]
  · next hpaths => exact iff_of_false List.not_mem_nil fun h => hpaths h.1

/-- A set that selects nothing need not be searched for. -/
theorem mem_matchedFiles_iff {t : FileTree} {base : String} {set : PatternSet} {p : RepoPath} :
    p ∈ matchedFiles t base set ↔
      (∃ f, FindsFile t base f ∧ p = .normalize f base) ∧ set.isMatch p = true := by
  unfold matchedFiles
  split
  · rw [List.mem_filter, mem_knownPaths_iff]
  · next hnone =>
    refine iff_of_false List.not_mem_nil fun h => hnone ?_
    unfold PatternSet.isMatch at h
    obtain ⟨p, hp, -⟩ := List.any_eq_true.1 (Bool.and_eq_true_iff.1 h.2).1
    unfold PatternSet.hasIncludes
    rw [Bool.not_eq_true', List.isEmpty_eq_false_iff]
    exact List.ne_nil_of_mem hp

/-- The files that are found and chosen, and those that are listed. -/
theorem mem_resolved_iff {t : FileTree} {base : String} {source : FileSource}
    {entries : List String} {set : PatternSet}
    (h : PatternSet.compile (patternsWith source entries) base = .ok set) {p : RepoPath} :
    p ∈ FileSet.ofList (listedFiles base source entries ++ matchedFiles t base set) ↔
      (∃ f, FindsFile t base f ∧ p = .normalize f base ∧
        PatternSet.Chooses (patternsWith source entries) base p) ∨
      source.listKind = .paths ∧ ∃ e ∈ entries, p = .normalize (Text.trim e) base := by
  rw [FileSet.mem_ofList, List.mem_append, mem_listedFiles_iff, mem_matchedFiles_iff,
    PatternSet.isMatch_iff_chooses h, or_comm]
  refine or_congr_left ?_
  constructor
  · rintro ⟨⟨f, hfinds, hp⟩, hchosen⟩
    exact ⟨f, hfinds, hp, hchosen⟩
  · rintro ⟨f, hfinds, hp, hchosen⟩
    exact ⟨⟨f, hfinds, hp⟩, hchosen⟩

/-- A source that is resolved stands for the files that a walk finds and its patterns choose, and
for the paths in its list if that holds finished paths.  Any other source whose patterns say the
same things, in whatever order and however often, and whose list holds the same finished paths, is
resolved to the same files, wherever the walk finds the same. -/
theorem resolve_meaning {t : FileTree} {base : String} {source : FileSource} {files : FileSet}
    (h : (resolve t base source).outcome = .ok files) :
    ∃ entries, Lists t base source entries ∧
      (∀ p, p ∈ files ↔
        (∃ f, FindsFile t base f ∧ p = .normalize f base ∧
          PatternSet.Chooses (patternsWith source entries) base p) ∨
        source.listKind = .paths ∧ ∃ e ∈ entries, p = .normalize (Text.trim e) base) ∧
      ∀ t' source' entries', Lists t' base source' entries' →
        (∀ f, FindsFile t' base f ↔ FindsFile t base f) →
        (∀ text, text ∈ PatternSet.meaningful (patternsWith source' entries') ↔
          text ∈ PatternSet.meaningful (patternsWith source entries)) →
        (∀ p, p ∈ listedFiles base source' entries' ↔ p ∈ listedFiles base source entries) →
        (resolve t' base source').outcome = .ok files := by
  obtain ⟨entries, set, hentries, hset, rfl⟩ := resolve_eq_ok_iff.1 h
  refine ⟨entries, outcome_listEntries_iff.1 hentries, fun p => mem_resolved_iff hset, ?_⟩
  intro t' source' entries' hentries' hfinds hmeaningful hlisted
  obtain ⟨set', hset'⟩ :
      ∃ set', PatternSet.compile (patternsWith source' entries') base = .ok set' := by
    rw [PatternSet.exists_compile_iff]
    intro text htext
    exact PatternSet.exists_compile_iff.1 ⟨set, hset⟩ text ((hmeaningful text).1 htext)
  refine resolve_eq_ok_iff.2
    ⟨entries', set', outcome_listEntries_iff.2 hentries', hset', FileSet.ext fun p => ?_⟩
  have hchooses : ∀ q, PatternSet.Chooses (patternsWith source' entries') base q ↔
      PatternSet.Chooses (patternsWith source entries) base q := by
    intro q
    unfold PatternSet.Chooses
    simp only [hmeaningful]
  rw [mem_resolved_iff hset, mem_resolved_iff hset', ← mem_listedFiles_iff, ← mem_listedFiles_iff,
    hlisted]
  simp only [hfinds, hchooses]

theorem leavesOf_root (t : FileTree) : leavesOf t "/" t.root = t.root.leaves := by
  unfold leavesOf
  rw [show PathText.lastName? "/" = none by decide +kernel]
  rfl

/-- Patterns that move to a list file in another order, with a comment and a blank at an end; a link
to a file, a link to a directory, and a file within `.git`. -/
theorem resolve_meaning_moved :
    let file : FileNode := .file [] false
    let tree : FileTree := ⟨.directory [
      (Octets.ofText "a.c", file), (Octets.ofText "b.c", file),
      (Octets.ofText ".git", .directory [(Octets.ofText "x.c", file)]),
      (Octets.ofText "d", .directory [(Octets.ofText "l.c", .link (Octets.ofText "../a.c")),
        (Octets.ofText "up", .link (Octets.ofText "/"))]),
      (Octets.ofText "list", .file (Octets.ofText "**/*.c \n\n# no\n") false)], []⟩
    let files : FileSet := .ofList [⟨"a.c"⟩, ⟨"d/l.c"⟩]
    (resolve tree "/" ⟨["**/*.c", "!b.c"], none, .patterns⟩).outcome = .ok files ∧
      (resolve tree "/" ⟨["!b.c", "!b.c"], some "/list", .patterns⟩).outcome = .ok files := by
  intro file tree files
  have hinline : (resolve tree "/" ⟨["**/*.c", "!b.c"], none, .patterns⟩).outcome = .ok files := by
    have hup : PathStep.ofPath (Octets.ofText "../a.c") = [.up, .down (Octets.ofText "a.c")] := by
      decide +kernel
    have hfile : leadsToFile tree [] [Octets.ofText "d", Octets.ofText "l.c"]
        (.link (Octets.ofText "../a.c")) = true := by
      have hleads : tree.Leads .looking FileTree.maxLinks [Octets.ofText "d"]
          [.down (Octets.ofText "l.c")] (.found [Octets.ofText "a.c"] file) := by
        refine .link rfl nofun (by decide +kernel) rfl nofun ?_
        rw [hup]
        exact .up rfl (.down rfl nofun (by decide +kernel) rfl rfl (.arrived rfl))
      exact leadsToFile_link [] [_] hleads _
    have hroot : PathStep.ofPath (Octets.ofText "/") = [] := by decide +kernel
    have hdirectory : leadsToFile tree [] [Octets.ofText "d", Octets.ofText "up"]
        (.link (Octets.ofText "/")) = false := by
      have hleads : tree.Leads .looking FileTree.maxLinks [Octets.ofText "d"]
          [.down (Octets.ofText "up")] (.found [] tree.root) := by
        refine .link rfl nofun (by decide +kernel) rfl nofun ?_
        rw [hroot]
        exact .arrived rfl
      exact leadsToFile_link [] [_] hleads _
    have hfound : found tree "/" = ["/a.c", "/b.c", "/d/l.c", "/d/up", "/list"].map fun path =>
        ⟨Octets.ofText path, path != "/d/up"⟩ := by
      rw [found_root]
      unfold foundAtRoot
      rw [leavesOf_root, show tree.root.leaves = [([Octets.ofText "a.c"], file),
        ([Octets.ofText "b.c"], file),
        ([Octets.ofText "d", Octets.ofText "l.c"], .link (Octets.ofText "../a.c")),
        ([Octets.ofText "d", Octets.ofText "up"], .link (Octets.ofText "/")),
        ([Octets.ofText "list"], _)] from rfl]
      simp only [List.map_cons, List.map_nil, hfile, hdirectory]
      rfl
    exact resolve_patterns_eq_ok hfound (by decide +kernel)
  obtain ⟨entries, hentries, -, hsame⟩ := resolve_meaning hinline
  have hnone : entries = [] := hentries
  subst hnone
  have hname : FileTree.IsName "/list" (Octets.ofText "list") := by decide +kernel
  have hplace := tree.startOf_eq_nil "/list" (by decide +kernel)
  have hnode : tree.nodeOf (RepoPath.joinText "/" "/list") =
      .ok (.file (Octets.ofText "**/*.c \n\n# no\n") false) := by
    rw [show RepoPath.joinText "/" "/list" = "/list" by decide +kernel]
    exact hname.nodeOf_eq_found hplace rfl rfl rfl
  have hread : ListFile.entries "**/*.c \n\n# no\n" = ["**/*.c", "# no"] := by decide +kernel
  have hlists : Lists tree "/" ⟨["!b.c", "!b.c"], some "/list", .patterns⟩ ["**/*.c", "# no"] := by
    rw [← outcome_listEntries_iff, listEntries_eq_ok hnode, hread]
  refine ⟨hinline, hsame tree _ _ hlists (fun _ => Iff.rfl) (fun text => ?_) (fun _ => Iff.rfl)⟩
  have hmoved : PatternSet.meaningful (patternsWith ⟨["!b.c", "!b.c"], some "/list", .patterns⟩
      ["**/*.c", "# no"]) = ["!b.c".toList, "!b.c".toList, "**/*.c".toList] := by
    decide +kernel
  have hgiven : PatternSet.meaningful (patternsWith ⟨["**/*.c", "!b.c"], none, .patterns⟩ []) =
      ["**/*.c".toList, "!b.c".toList] := by
    decide +kernel
  rw [hmoved, hgiven]
  simp only [List.mem_cons, List.not_mem_nil, or_false]
  rw [or_self_left, or_comm]

/-- A link named `.git` is entered as a base directory, although everything else of that name is
passed over. -/
theorem resolve_linked_git :
    let inner : FileNode := .directory [(Octets.ofText "a", .file [] false)]
    let tree : FileTree := ⟨.directory [(Octets.ofText ".git", .link (Octets.ofText "d")),
      (Octets.ofText "d", inner)], []⟩
    let source : FileSource := ⟨["**"], none, .patterns⟩
    let files : FileSet := .ofList [⟨"a"⟩]
    (resolve tree "/.git" source).outcome = .ok files ∧
      ¬∀ p, p ∈ files ↔ ∃ f, PathText.lastName? "/.git" ≠ some ".git" ∧
        FindsFile tree "/.git" f ∧ p = .normalize f "/.git" ∧
        PatternSet.Chooses source.patterns "/.git" p := by
  intro inner tree source files
  have hname : FileTree.IsName "/.git" (Octets.ofText ".git") := by decide +kernel
  have hplace := tree.startOf_eq_nil "/.git" (by decide +kernel)
  have htarget : PathStep.ofPath (Octets.ofText "d") = [.down (Octets.ofText "d")] := by
    decide +kernel
  have hspot : tree.spot "/.git" = .ok (.found [Octets.ofText "d"] inner) := by
    refine hname.followPath_eq hplace (.link rfl nofun (by decide +kernel) rfl nofun ?_)
    rw [htarget]
    exact .down rfl nofun (by decide +kernel) rfl rfl (.arrived rfl)
  have hlink : namesLink tree "/.git" = true := by
    unfold namesLink
    dsimp only
    rw [hname.followPath_eq hplace (.named rfl rfl (by decide +kernel) rfl)]
    rfl
  have hleaves : leavesOf tree "/.git" inner = inner.leaves := by
    unfold leavesOf
    rw [hlink]
    simp [inner, FileNode.isDirectory]
  have hfound : found tree "/.git" = [⟨Octets.ofText "/.git/a", true⟩] := by
    unfold found visits
    rw [hspot]
    show (leavesOf tree "/.git" inner).map _ = _
    rw [hleaves]
    rfl
  refine ⟨resolve_patterns_eq_ok hfound (by decide +kernel), fun hclaimed => ?_⟩
  have hmem : (⟨"a"⟩ : RepoPath) ∈ files := FileSet.mem_ofList.2 List.mem_cons_self
  obtain ⟨f, hskipped, -⟩ := (hclaimed ⟨"a"⟩).1 hmem
  exact hskipped (by decide +kernel)

end Selection

end ParseAudit
