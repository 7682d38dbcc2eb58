import ParseAudit.Proofs.Action
import ParseAudit.Proofs.FileSet
import ParseAudit.Proofs.RepoPath.Twice
import ParseAudit.Proofs.Scan.Decoding
import ParseAudit.Proofs.Tree.Naming
import ParseAudit.Selection.Resolve
/-!
# What a source is resolved to

Resolving a source fails for two reasons only: its list file cannot be read, or its patterns cannot
be compiled.  The files that it gives otherwise are entries of the list file and files that the
search comes upon, all of them normalized.

* `outcome_expand`: the search itself never fails;
* `resolve_eq_ok_iff`: what a source is resolved to;
* `exists_normalize_of_mem_resolve`: every file of a resolved set was normalized;
* `isPlain_of_mem_resolve`: the names among them that can stand in a line of text;
* `resolve_patterns_eq_ok`, `resolve_list_eq_ok`: sources that are only patterns, or only a list.
-/

namespace ParseAudit.Selection

open ParseAudit.Action

/-- The paths among some visits, as they are known; those that are not text are passed over. -/
def knownPaths (base : String) (found : List Visit) : List RepoPath :=
  found.filterMap fun visit => (Octets.toText? visit.path).map (RepoPath.normalize · base)

theorem outcome_pathOf (visit : Visit) (base : String) :
    (pathOf visit base).outcome =
      .ok ((Octets.toText? visit.path).map (RepoPath.normalize · base)) := by
  unfold pathOf
  split
  · next path htext => rw [htext]; rfl
  · next htext => rw [htext]; rfl

theorem outcome_pathsOf (base : String) (found : List Visit) :
    (pathsOf base found).outcome = .ok (knownPaths base found) := by
  induction found with
  | nil => rfl
  | cons visit found ih =>
    unfold pathsOf knownPaths
    rw [Traced.outcome_bind, outcome_pathOf]
    show (pathsOf base found >>= _).outcome = _
    rw [Traced.outcome_bind, ih, List.filterMap_cons]
    cases (Octets.toText? visit.path).map (RepoPath.normalize · base) with
    | none => rfl
    | some path => rfl

/-- What the search beneath a base directory comes upon. -/
def found (t : FileTree) (base : String) : List Visit :=
  match (visits t base).outcome with
  | .ok found => found
  | .error _ => []

theorem outcome_visits (t : FileTree) (base : String) :
    (visits t base).outcome = .ok (found t base) := by
  unfold found visits
  dsimp only
  split
  · rfl
  · rfl
  · rfl

/-- The search itself never fails. -/
theorem outcome_expand (t : FileTree) (base : String) (patterns : PatternSet) :
    (expand t base patterns).outcome =
      .ok ((knownPaths base ((found t base).filter Visit.isFile)).filter patterns.isMatch) := by
  unfold expand
  rw [Traced.outcome_bind, outcome_visits]
  show (pathsOf base _ >>= _).outcome = _
  rw [Traced.outcome_bind, outcome_pathsOf]
  rfl

/-- The patterns of a source, with those of its list file. -/
def patternsWith (source : FileSource) (entries : List String) : List String :=
  source.patterns ++ if source.listKind = .patterns then entries else []

/-- The files of a list file that is to be taken as it is. -/
def listedFiles (base : String) (source : FileSource) (entries : List String) : List RepoPath :=
  if source.listKind = .paths then
    entries.map fun entry => RepoPath.normalize (Text.trim entry) base
  else []

/-- The files beneath a base directory that some patterns select, if any pattern selects at all. -/
def matchedFiles (t : FileTree) (base : String) (set : PatternSet) : List RepoPath :=
  if set.hasIncludes then
    (knownPaths base ((found t base).filter Visit.isFile)).filter set.isMatch
  else []

/-- What a source is resolved to. -/
theorem resolve_eq_ok_iff {t : FileTree} {base : String} {source : FileSource} {files : FileSet} :
    (resolve t base source).outcome = .ok files ↔
      ∃ entries set, (listEntries t base source).outcome = .ok entries ∧
        PatternSet.compile (patternsWith source entries) base = .ok set ∧
        files = .ofList (listedFiles base source entries ++ matchedFiles t base set) := by
  unfold resolve
  rw [Traced.outcome_bind, bind_eq_ok_iff]
  refine exists_congr fun entries => ?_
  dsimp only
  rw [Traced.outcome_bind, bind_eq_ok_iff, ← exists_and_left]
  refine exists_congr fun set => and_congr_right fun _ => and_congr_right fun _ => ?_
  unfold matchedFiles
  split
  · rw [Traced.outcome_bind, outcome_expand]
    show Except.ok _ = Except.ok files ↔ _
    rw [Except.ok.injEq, eq_comm]
    rfl
  · show Except.ok _ = Except.ok files ↔ _
    rw [Except.ok.injEq, eq_comm]
    rfl

/-- Every path that the search knows was normalized. -/
theorem exists_normalize_of_mem_knownPaths {base : String} {found : List Visit} {p : RepoPath}
    (h : p ∈ knownPaths base found) : ∃ text, p = .normalize text base := by
  obtain ⟨visit, -, hp⟩ := List.mem_filterMap.1 h
  obtain ⟨text, -, rfl⟩ := Option.map_eq_some_iff.1 hp
  exact ⟨text, rfl⟩

/-- Every file of a resolved set was normalized. -/
theorem exists_normalize_of_mem_resolve {t : FileTree} {base : String} {source : FileSource}
    {files : FileSet} (h : (resolve t base source).outcome = .ok files) {p : RepoPath}
    (hp : p ∈ files) : ∃ text, p = .normalize text base := by
  obtain ⟨entries, set, -, -, rfl⟩ := resolve_eq_ok_iff.1 h
  rw [FileSet.mem_ofList, List.mem_append] at hp
  rcases hp with hlisted | hmatched
  · unfold listedFiles at hlisted
    split at hlisted
    · obtain ⟨entry, -, rfl⟩ := List.mem_map.1 hlisted
      exact ⟨Text.trim entry, rfl⟩
    · cases hlisted
  · unfold matchedFiles at hmatched
    split at hmatched
    · exact exists_normalize_of_mem_knownPaths (List.mem_filter.1 hmatched).1
    · cases hmatched

/-! ## Names in lines of text -/

/-- The name of a file that can be found again in a line of text: it holds no line feed, it has no
blank at either end, and it is not misread. -/
structure IsLegible (base : String) (t : RepoPath) : Prop where
  feed : '\n' ∉ t.text.toList
  trimmed : Chars.Trimmed t.text.toList
  read : ¬t.IsMisread base

theorem isLegible_iff {base : String} {t : RepoPath} :
    IsLegible base t ↔
      '\n' ∉ t.text.toList ∧ Chars.Trimmed t.text.toList ∧ ¬t.IsMisread base :=
  ⟨fun h => ⟨h.feed, h.trimmed, h.read⟩, fun h => ⟨h.1, h.2.1, h.2.2⟩⟩

instance (base : String) (t : RepoPath) : Decidable (IsLegible base t) :=
  decidable_of_iff' _ isLegible_iff

/-- A resolved file with a legible name can stand in front of a line. -/
theorem isPlain_of_mem_resolve {t : FileTree} {base : String} {source : FileSource}
    {files : FileSet} (h : (resolve t base source).outcome = .ok files) {p : RepoPath}
    (hp : p ∈ files) (hlegible : IsLegible base p) : Scan.IsPlain base p := by
  obtain ⟨text, rfl⟩ := exists_normalize_of_mem_resolve h hp
  refine ⟨?_, hlegible.feed, hlegible.trimmed,
    (RepoPath.normalize_again_iff text base).2 hlegible.read⟩
  rw [RepoPath.toList_normalize]
  have hproper := Anchored.proper_ofChars text.toList
  exact (hproper.seenFrom (Anchored.ofChars base.toList)).toChars_ne_nil

/-! ## Resolving by evaluation -/

/-- What is resolved is known from its list. -/
theorem resolve_eq_ok_ofList {t : FileTree} {base : String} {source : FileSource}
    {files : List RepoPath}
    (h : (resolve t base source).outcome.toOption.map FileSet.toList = some files) :
    (resolve t base source).outcome = .ok (.ofList files) := by
  cases houtcome : (resolve t base source).outcome with
  | error e =>
    rw [houtcome] at h
    cases h
  | ok set =>
    rw [houtcome] at h
    rw [FileSet.eq_ofList (Option.some.inj h)]

/-- What patterns alone are resolved to, from what the search comes upon. -/
theorem resolve_patterns_eq_ok {t : FileTree} {base : String} {patterns : List String}
    {visits : List Visit} {files : List RepoPath} (hfound : found t base = visits)
    (h : (PatternSet.compile patterns base).toOption.map (fun set =>
      (set.hasIncludes, (FileSet.ofList ((knownPaths base
        (visits.filter Visit.isFile)).filter set.isMatch)).toList)) = some (true, files)) :
    (resolve t base ⟨patterns, none, .patterns⟩).outcome = .ok (.ofList files) := by
  cases hset : PatternSet.compile patterns base with
  | error e =>
    rw [hset] at h
    cases h
  | ok set =>
    rw [hset] at h
    obtain ⟨hincludes, hfiles⟩ := Prod.mk.inj (Option.some.inj h)
    refine resolve_eq_ok_iff.2 ⟨[], set, rfl, ?_, ?_⟩
    · unfold patternsWith
      rwa [if_pos rfl, List.append_nil]
    · unfold matchedFiles
      rw [if_pos hincludes, hfound]
      exact (FileSet.eq_ofList hfiles).symm

/-- What the search from the root directory comes upon. -/
def foundAtRoot (t : FileTree) : List Visit :=
  (leavesOf t "/" t.root).map fun (names, leaf) =>
    ⟨pathBeneath (Octets.ofText "/") names, leadsToFile t [] names leaf⟩

theorem found_root (t : FileTree) : found t "/" = foundAtRoot t := by
  unfold found visits
  rw [FileTree.spot_root]
  rfl

/-- What patterns alone are resolved to at the root directory. -/
theorem resolve_root_eq_ok {t : FileTree} {patterns : List String} {files : List RepoPath}
    (h : (PatternSet.compile patterns "/").toOption.map (fun set =>
      (set.hasIncludes, (FileSet.ofList ((knownPaths "/"
        ((foundAtRoot t).filter Visit.isFile)).filter set.isMatch)).toList)) =
      some (true, files)) :
    (resolve t "/" ⟨patterns, none, .patterns⟩).outcome = .ok (.ofList files) :=
  resolve_patterns_eq_ok (found_root t) h

/-- Without patterns no file is searched for. -/
theorem compile_nil (base : String) : PatternSet.compile [] base = .ok ⟨[]⟩ := rfl

/-- A list file that is there is read as the entries of its text. -/
theorem listEntries_eq_ok {t : FileTree} {base place text : String} {executable : Bool}
    {patterns : List String} {kind : ListKind}
    (h : t.nodeOf (RepoPath.joinText base place) = .ok (.file (Octets.ofText text) executable)) :
    (listEntries t base ⟨patterns, some place, kind⟩).outcome = .ok (ListFile.entries text) := by
  have hfile : t.isFile (RepoPath.joinText base place) = true := by
    unfold FileTree.isFile
    rw [h]
    rfl
  have hread : t.readText (RepoPath.joinText base place) = .ok text := by
    have hoctets : t.readAt (Octets.ofText (RepoPath.joinText base place)) =
        .ok (Octets.ofText text) := by
      unfold FileTree.readAt
      rw [show FileTree.nodeAt _ _ = _ from h]
      rfl
    unfold FileTree.readText FileTree.readTextAt
    rw [hoctets]
    dsimp only [Bind.bind, Except.bind]
    rw [Octets.toText?_ofText]
    rfl
  unfold listEntries ListFile.read
  dsimp only
  rw [if_pos hfile, hread]
  rfl

/-- What a list file with finished paths is resolved to. -/
theorem resolve_list_eq_ok {t : FileTree} {base place text : String} {executable : Bool}
    (h : t.nodeOf (RepoPath.joinText base place) = .ok (.file (Octets.ofText text) executable)) :
    (resolve t base ⟨[], some place, .paths⟩).outcome =
      .ok (.ofList ((ListFile.entries text).map fun e => .normalize (Text.trim e) base)) := by
  refine resolve_eq_ok_iff.2 ⟨_, ⟨[]⟩, listEntries_eq_ok h, compile_nil base, ?_⟩
  show _ = FileSet.ofList (_ ++ [])
  rw [List.append_nil]
  rfl

/-- A list file that is not there names no file. -/
theorem resolve_list_of_missing {t : FileTree} {base place : String} {e : FileError}
    (h : t.nodeOf (RepoPath.joinText base place) = .error e) :
    (resolve t base ⟨[], some place, .paths⟩).outcome = .ok (.ofList []) := by
  have hfile : t.isFile (RepoPath.joinText base place) = false := by
    unfold FileTree.isFile
    rw [h]
    rfl
  have hentries : (listEntries t base ⟨[], some place, .paths⟩).outcome = .ok [] := by
    unfold listEntries ListFile.read
    dsimp only
    rw [if_neg (Bool.eq_false_iff.1 hfile)]
    rfl
  exact resolve_eq_ok_iff.2 ⟨[], ⟨[]⟩, hentries, compile_nil base, rfl⟩

end ParseAudit.Selection
