import ParseAudit.Proofs.RepoPath.Reanchored
import Mathlib.Logic.Relation
/-!
# Spellings of a path

A path can be spelled with either separator, with runs of separators between two names or at its
end, with `.` segments in such a run, and with `./` in front if it has no root of its own.  None of
this changes what a text is read as, and nothing else can be changed: two texts are spellings of one
path exactly if no base directory tells them apart.

* `Respelling`, `SpelledAlike`: one change of the spelling, and any number of them;
* `Respelling.ofChars_eq`: one change keeps what is read;
* `spelledAlike_spelling`: every text can be brought to the plain spelling of what it is read as;
* `spelledAlike_iff_normalize_eq`: texts that are spelled alike are normalized alike, from every
  base directory and as base directories, and no others are.
-/

namespace ParseAudit

open Chars (splitOnP_cons_of_not splitOnP_cons_separator)

namespace Anchored

/-- Separators one after another, with perhaps a `.` segment between one and the next. -/
inductive SeparatorRun : List Char → Prop where
  | last {c : Char} (h : isSeparator c = true) : SeparatorRun [c]
  | separator {c : Char} {run : List Char} (h : isSeparator c = true) (hrun : SeparatorRun run) :
    SeparatorRun (c :: run)
  | dot {c : Char} {run : List Char} (h : isSeparator c = true) (hrun : SeparatorRun run) :
    SeparatorRun (c :: '.' :: run)

/-- Separators and `.` segments that may stand behind a path: the last segment may be a `.` too. -/
inductive IsTail : List Char → Prop where
  | run {run : List Char} (h : SeparatorRun run) : IsTail run
  | dot {run : List Char} (h : SeparatorRun run) : IsTail (run ++ ['.'])

/-- One change of the spelling of a path. -/
inductive Respelling : List Char → List Char → Prop where
  /-- Any run of separators stands for a slash. -/
  | run {before run after : List Char} (h : SeparatorRun run) :
    Respelling (before ++ '/' :: after) (before ++ run ++ after)
  /-- Separators behind a path say nothing. -/
  | tail {s tail : List Char} (hne : s ≠ []) (h : IsTail tail) : Respelling s (s ++ tail)
  /-- A path without a root of its own starts from the directory it is seen from. -/
  | dot {s : List Char} (h : ¬StartsAtRoot s) : Respelling s ('.' :: '/' :: s)

/-- Spellings that any number of changes turn into each other. -/
def SpelledAlike : List Char → List Char → Prop := Relation.EqvGen Respelling

/-! ## Respelling keeps what is read -/

/-- A run of separators puts pieces between two texts that say nothing. -/
theorem SeparatorRun.exists_splitOnP {run : List Char} (h : SeparatorRun run) :
    ∃ mid : List (List Char), (∀ piece ∈ mid, isMeaningful piece = false) ∧
      ∀ before after, (before ++ run ++ after).splitOnP isSeparator =
        before.splitOnP isSeparator ++ mid ++ after.splitOnP isSeparator := by
  have hcut : ∀ {c : Char}, isSeparator c = true → ∀ before rest : List Char,
      (before ++ c :: rest).splitOnP isSeparator =
        before.splitOnP isSeparator ++ rest.splitOnP isSeparator :=
    fun hc before rest => List.splitOnP_append_cons before rest hc
  induction h with
  | last hc =>
    refine ⟨[], nofun, fun before after => ?_⟩
    rw [List.append_assoc, List.singleton_append, hcut hc, List.append_nil]
  | @separator c run hc _ ih =>
    obtain ⟨mid, hmid, hsplit⟩ := ih
    refine ⟨[] :: mid, List.forall_mem_cons.2 ⟨rfl, hmid⟩, fun before after => ?_⟩
    have hrest := hsplit [] after
    rw [List.nil_append, List.splitOnP_nil] at hrest
    rw [List.append_assoc, List.cons_append, hcut hc, hrest]
    simp only [List.append_assoc, List.cons_append, List.nil_append]
  | @dot c run hc _ ih =>
    obtain ⟨mid, hmid, hsplit⟩ := ih
    refine ⟨['.'] :: mid, List.forall_mem_cons.2 ⟨rfl, hmid⟩, fun before after => ?_⟩
    have hrest := hsplit ['.'] after
    rw [List.append_assoc, List.singleton_append] at hrest
    rw [List.append_assoc, List.cons_append, List.cons_append, hcut hc, hrest]
    simp [List.splitOnP_cons_eq_if_modifyHead, isSeparator]

/-- Behind the first piece only the meaningful pieces count, and whether there is any piece at
all. -/
theorem ofPieces_cons_congr {first : List Char} {rest rest' : List (List Char)}
    (hfilter : rest.filter isMeaningful = rest'.filter isMeaningful)
    (hnil : first = [] → (rest = [] ↔ rest' = [])) :
    ofPieces (first :: rest) = ofPieces (first :: rest') := by
  have hslash : first = [] ∧ rest ≠ [] ↔ first = [] ∧ rest' ≠ [] :=
    and_congr_right fun hfirst => not_congr (hnil hfirst)
  simp only [ofPieces, List.filter_cons, hslash, hfilter]

/-- A text whose first piece is empty goes on behind a separator, unless there is no text. -/
theorem ne_nil_of_splitOnP {s : List Char} {rest : List (List Char)} (hne : s ≠ [])
    (h : s.splitOnP isSeparator = [] :: rest) : rest ≠ [] := by
  rcases splitOnP_eq_cons h with ⟨rfl, -⟩ | ⟨e, tail, -, -, rfl⟩
  · exact absurd rfl hne
  · exact List.splitOnP_ne_nil isSeparator tail

theorem filter_eq_nil_of_forall {mid : List (List Char)}
    (h : ∀ piece ∈ mid, isMeaningful piece = false) : mid.filter isMeaningful = [] := by
  rw [List.filter_eq_nil_iff]
  intro piece hpiece
  rw [h piece hpiece]
  exact Bool.false_ne_true

/-- Any run of separators stands for a slash. -/
theorem ofChars_run {run : List Char} (h : SeparatorRun run) (before after : List Char) :
    ofChars (before ++ run ++ after) = ofChars (before ++ '/' :: after) := by
  obtain ⟨mid, hmid, hsplit⟩ := h.exists_splitOnP
  have hslash : (before ++ '/' :: after).splitOnP isSeparator =
      before.splitOnP isSeparator ++ after.splitOnP isSeparator :=
    List.splitOnP_append_cons before after rfl
  obtain ⟨first, rest, hbefore⟩ :=
    List.exists_cons_of_ne_nil (List.splitOnP_ne_nil isSeparator before)
  rw [ofChars_eq_ofPieces, ofChars_eq_ofPieces, hsplit, hslash, hbefore, List.append_assoc,
    List.cons_append, List.cons_append]
  apply ofPieces_cons_congr
  · rw [List.filter_append, List.filter_append, List.filter_append,
      filter_eq_nil_of_forall hmid, List.nil_append]
  · intro _
    have hafter := List.splitOnP_ne_nil isSeparator after
    simp [hafter]

/-- Pieces that say nothing may stand behind a path. -/
theorem ofPieces_append_of_forall {s : List Char} (hne : s ≠ []) {mid : List (List Char)}
    (h : ∀ piece ∈ mid, isMeaningful piece = false) :
    ofPieces (s.splitOnP isSeparator ++ mid) = ofChars s := by
  obtain ⟨first, rest, hs⟩ :=
    List.exists_cons_of_ne_nil (List.splitOnP_ne_nil isSeparator s)
  rw [ofChars_eq_ofPieces, hs, List.cons_append]
  apply ofPieces_cons_congr
  · rw [List.filter_append, filter_eq_nil_of_forall h, List.append_nil]
  · rintro rfl
    have hrest := ne_nil_of_splitOnP hne hs
    simp [hrest]

/-- What may stand behind a path puts pieces there that say nothing. -/
theorem IsTail.exists_splitOnP {tail : List Char} (h : IsTail tail) :
    ∃ mid : List (List Char), (∀ piece ∈ mid, isMeaningful piece = false) ∧
      ∀ s, (s ++ tail).splitOnP isSeparator = s.splitOnP isSeparator ++ mid := by
  cases h with
  | run h =>
    obtain ⟨mid, hmid, hsplit⟩ := h.exists_splitOnP
    refine ⟨mid ++ [[]], List.forall_mem_append.2 ⟨hmid, by decide⟩, fun s => ?_⟩
    simpa using hsplit s []
  | dot h =>
    obtain ⟨mid, hmid, hsplit⟩ := h.exists_splitOnP
    refine ⟨mid ++ [['.']], List.forall_mem_append.2 ⟨hmid, by decide⟩, fun s => ?_⟩
    rw [← List.append_assoc, hsplit s ['.'], List.append_assoc]
    rfl

/-- Separators behind a path say nothing. -/
theorem ofChars_tail {s tail : List Char} (hne : s ≠ []) (h : IsTail tail) :
    ofChars (s ++ tail) = ofChars s := by
  obtain ⟨mid, hmid, hsplit⟩ := h.exists_splitOnP
  rw [ofChars_eq_ofPieces (s ++ tail), hsplit, ofPieces_append_of_forall hne hmid]

/-- A path without a root of its own may start with `./`. -/
theorem ofChars_dot {s : List Char} (h : ¬StartsAtRoot s) :
    ofChars ('.' :: '/' :: s) = ofChars s := by
  rw [startsAtRoot_iff, not_not] at h
  have hpieces : ('.' :: '/' :: s).splitOnP isSeparator = ['.'] :: s.splitOnP isSeparator :=
    List.splitOnP_append_cons ['.'] s rfl
  rw [ofChars_of_relative h, ofChars_eq_ofPieces, hpieces, ofPieces_relative (by decide) rfl]
  rfl

/-- One change of the spelling keeps what a text is read as. -/
theorem Respelling.ofChars_eq {s t : List Char} (h : Respelling s t) : ofChars s = ofChars t := by
  cases h with
  | @run before run after h => exact (ofChars_run h before after).symm
  | tail hne h => exact (ofChars_tail hne h).symm
  | dot h => exact (ofChars_dot h).symm

/-- So does any number of them. -/
theorem SpelledAlike.ofChars_eq {s t : List Char} (h : SpelledAlike s t) :
    ofChars s = ofChars t := by
  induction h with
  | rel s t hst => exact hst.ofChars_eq
  | refl s => rfl
  | symm s t _ ih => exact ih.symm
  | trans s t u _ _ ihst ihtu => exact ihst.trans ihtu

/-! ## Texts that are read as the same -/

/-- Pieces, each of them behind a slash. -/
def behindSlashes (pieces : List (List Char)) : List Char := pieces.flatMap ('/' :: ·)

/-- What the plain spelling of a path starts with. -/
def spellingFront : Root → List Char
  | .relative => ['.']
  | .slash => ['/']
  | .drive letter => [letter, ':']

/-- The plain spelling of a path. -/
def spelling (p : Anchored) : List Char := spellingFront p.root ++ behindSlashes p.segments

theorem SpelledAlike.refl (s : List Char) : SpelledAlike s s := Relation.EqvGen.refl s

theorem SpelledAlike.symm {s t : List Char} (h : SpelledAlike s t) : SpelledAlike t s :=
  Relation.EqvGen.symm s t h

theorem SpelledAlike.trans {s t u : List Char} (h : SpelledAlike s t) (h' : SpelledAlike t u) :
    SpelledAlike s u := Relation.EqvGen.trans s t u h h'

theorem Respelling.spelledAlike {s t : List Char} (h : Respelling s t) : SpelledAlike s t :=
  Relation.EqvGen.rel s t h

theorem spelledAlike_run {run run' : List Char} (h : SeparatorRun run) (h' : SeparatorRun run')
    (before after : List Char) :
    SpelledAlike (before ++ run ++ after) (before ++ run' ++ after) :=
  (Respelling.run h).spelledAlike.symm.trans (Respelling.run h').spelledAlike

/-- Every separator of a text may be a slash. -/
theorem spelledAlike_slashes {s first : List Char} {rest : List (List Char)} (before : List Char)
    (h : s.splitOnP isSeparator = first :: rest) :
    SpelledAlike (before ++ s) (before ++ first ++ behindSlashes rest) := by
  induction s generalizing before first rest with
  | nil =>
    rw [List.splitOnP_nil, List.cons.injEq] at h
    obtain ⟨rfl, rfl⟩ := h
    simpa [behindSlashes] using SpelledAlike.refl before
  | cons c cs ih =>
    obtain ⟨piece, pieces, hcs⟩ :=
      List.exists_cons_of_ne_nil (List.splitOnP_ne_nil isSeparator cs)
    cases hc : isSeparator c with
    | true =>
      rw [splitOnP_cons_separator hc, hcs, List.cons.injEq] at h
      obtain ⟨rfl, rfl⟩ := h
      have hslash := spelledAlike_run (.last hc) (.last (c := '/') rfl) before cs
      have hrest := ih (before ++ ['/']) hcs
      rw [List.append_assoc, List.singleton_append] at hslash
      refine hslash.trans ?_
      simpa [behindSlashes] using hrest
    | false =>
      rw [splitOnP_cons_of_not hc hcs, List.cons.injEq] at h
      obtain ⟨rfl, rfl⟩ := h
      simpa using ih (before ++ [c]) hcs

/-- A piece that says nothing may be left out behind a path. -/
theorem spelledAlike_behindSlashes_cons {before piece : List Char} (hne : before ≠ [])
    (h : isMeaningful piece = false) (pieces : List (List Char)) :
    SpelledAlike (before ++ behindSlashes (piece :: pieces)) (before ++ behindSlashes pieces) := by
  have hslash : SeparatorRun ['/'] := .last rfl
  cases pieces with
  | nil =>
    have htail : IsTail ('/' :: piece) := by
      rcases eq_of_isMeaningful_eq_false h with rfl | rfl
      · exact .run hslash
      · exact .dot hslash
    simpa [behindSlashes] using (Respelling.tail hne htail).spelledAlike.symm
  | cons next more =>
    have hrun : SeparatorRun ('/' :: (piece ++ ['/'])) := by
      rcases eq_of_isMeaningful_eq_false h with rfl | rfl
      · exact .separator rfl hslash
      · exact .dot rfl hslash
    simpa [behindSlashes] using spelledAlike_run hrun hslash before (next ++ behindSlashes more)

/-- Behind a path all pieces may be left out that say nothing. -/
theorem spelledAlike_filter {before : List Char} (hne : before ≠ []) (pieces : List (List Char)) :
    SpelledAlike (before ++ behindSlashes pieces)
      (before ++ behindSlashes (pieces.filter isMeaningful)) := by
  induction pieces generalizing before with
  | nil => exact SpelledAlike.refl _
  | cons piece pieces ih =>
    cases h : isMeaningful piece with
    | true =>
      rw [List.filter_cons_of_pos h]
      simpa [behindSlashes] using ih (List.append_ne_nil_of_left_ne_nil hne ('/' :: piece))
    | false =>
      rw [List.filter_cons_of_neg (by simp [h])]
      exact (spelledAlike_behindSlashes_cons hne h pieces).trans (ih hne)

/-- Every text can be brought to the plain spelling of what it is read as. -/
theorem spelledAlike_spelling (s : List Char) : SpelledAlike s (spelling (ofChars s)) := by
  obtain ⟨first, rest, hpieces⟩ :=
    List.exists_cons_of_ne_nil (List.splitOnP_ne_nil isSeparator s)
  have hslashes : SpelledAlike s (first ++ behindSlashes rest) := spelledAlike_slashes [] hpieces
  by_cases hroot : (ofChars s).root = .relative
  · -- All pieces stand behind a slash once there is `./` in front.
    have hdot := (Respelling.dot (startsAtRoot_iff.not_left.2 hroot)).spelledAlike
    have hbehind := spelledAlike_slashes ['.', '/'] hpieces
    have hfilter := spelledAlike_filter (List.cons_ne_nil '.' []) (first :: rest)
    rw [ofChars_of_relative hroot, hpieces]
    exact (hdot.trans hbehind).trans hfilter
  · rw [ofChars_eq_ofPieces, hpieces] at hroot ⊢
    by_cases hslash : first = [] ∧ rest ≠ []
    · obtain ⟨rfl, hrest⟩ := hslash
      obtain ⟨next, more, rfl⟩ := List.exists_cons_of_ne_nil hrest
      have hone : SeparatorRun ['/'] := .last rfl
      have htwice := spelledAlike_run hone (.separator (c := '/') rfl hone) []
        (next ++ behindSlashes more)
      have hfilter := spelledAlike_filter (List.cons_ne_nil '/' []) (next :: more)
      rw [ofPieces_slash hrest]
      exact (hslashes.trans htwice).trans hfilter
    · cases hdrive : driveLetter? first with
      | none => exact absurd (by simp only [ofPieces, if_neg hslash, hdrive]) hroot
      | some c =>
        obtain ⟨hc, rfl⟩ := driveLetter?_eq_some_iff.1 hdrive
        rw [ofPieces_drive hc]
        exact hslashes.trans (spelledAlike_filter (List.cons_ne_nil _ _) rest)

/-- The changes of the spelling are all that keeps what a text is read as. -/
theorem spelledAlike_iff_ofChars_eq {s t : List Char} :
    SpelledAlike s t ↔ ofChars s = ofChars t := by
  constructor
  · exact SpelledAlike.ofChars_eq
  · intro h
    have ht := (spelledAlike_spelling t).symm
    rw [← h] at ht
    exact (spelledAlike_spelling s).trans ht

instance (s t : List Char) : Decidable (SpelledAlike s t) :=
  decidable_of_iff' _ spelledAlike_iff_ofChars_eq

end Anchored

namespace RepoPath

open Anchored

variable {path path' : String}

/-- A path without a root that looks like a drive in front is told from one on that drive by the
drive as base directory. -/
theorem exists_normalize_ne {c : Char} {rest : List (List Char)} (hc : c.isAlpha = true)
    (hpath : ofChars path.toList = ⟨.relative, [c, ':'] :: rest⟩)
    (hpath' : ofChars path'.toList = ⟨.drive c, rest⟩) :
    ∃ base, normalize path base ≠ normalize path' base := by
  refine ⟨String.ofList [c, ':'], fun heq => ?_⟩
  have hbase : ofChars [c, ':'] = ⟨.drive c, []⟩ := by
    have hfree : [c, ':'].splitOnP isSeparator = [[c, ':']] := by
      refine List.splitOnP_eq_singleton fun d hd => ?_
      rcases List.mem_cons.1 hd with rfl | hd
      · exact isSeparator_of_isAlpha hc
      · rw [List.mem_singleton.1 hd]
        rfl
    rw [ofChars_eq_ofPieces, hfree, ofPieces_drive hc]
    rfl
  have hproper := proper_ofChars path.toList
  have hproper' := (proper_ofChars path'.toList).seenFrom ⟨.drive c, []⟩
  have hbelow : below? ⟨.drive c, rest⟩ ⟨.drive c, []⟩ = some rest :=
    below?_eq_some_iff.2 ⟨Root.same_self nofun, rfl⟩
  have hchars := congrArg (fun p => p.text.toList) heq
  simp only [toList_normalize, String.toList_ofList, hbase, hpath, hpath'] at hchars
  rw [hpath] at hproper
  rw [hpath', seenFrom, hbelow] at hproper'
  rw [seenFrom, below?_relative, seenFrom, hbelow] at hchars
  have hlength := congrArg List.length (segments_eq_of_relativeText_eq hproper hproper' hchars)
  rw [List.length_cons] at hlength
  omega

/-- A path that looks like a drive in front is told from every path that has the same text and is
read back from it. -/
theorem exists_normalize_ne_of_readBack {c : Char} {rest : List (List Char)}
    (hc : c.isAlpha = true) (hpath : ofChars path.toList = ⟨.relative, [c, ':'] :: rest⟩)
    (hread' : ofChars (ofChars path'.toList).toChars = ofChars path'.toList)
    (hchars : (ofChars path.toList).toChars = (ofChars path'.toList).toChars) :
    ∃ base, normalize path base ≠ normalize path' base := by
  have hproper := proper_ofChars path.toList
  rw [hpath] at hproper hchars
  rw [← hchars, ofChars_toChars_drive hc hproper] at hread'
  exact exists_normalize_ne hc hpath hread'.symm

/-- Texts that no base directory tells apart are read as the same. -/
theorem ofChars_eq_of_forall_normalize_eq (h : ∀ base, normalize path base = normalize path' base) :
    ofChars path.toList = ofChars path'.toList := by
  have hproper := proper_ofChars path.toList
  have hproper' := proper_ofChars path'.toList
  have hnew : new path = new path' := by
    have hempty : (ofChars "".toList).root = .relative := rfl
    rw [← normalize_of_relative hempty, h, normalize_of_relative hempty]
  have hchars : (ofChars path.toList).toChars = (ofChars path'.toList).toChars := by
    rw [← toList_new, ← toList_new, hnew]
  rcases looksLikeDrive_or_readBack hproper with ⟨c, rest, hc, hpath⟩ | hread
  · rcases looksLikeDrive_or_readBack hproper' with ⟨c', rest', -, hpath'⟩ | hread'
    · rw [hpath, hpath'] at hchars
      rw [hpath] at hproper ⊢
      rw [hpath'] at hproper' ⊢
      rw [segments_eq_of_relativeText_eq hproper hproper' hchars]
    · obtain ⟨base, hne⟩ := exists_normalize_ne_of_readBack hc hpath hread' hchars
      exact absurd (h base) hne
  · rcases looksLikeDrive_or_readBack hproper' with ⟨c, rest, hc, hpath'⟩ | hread'
    · obtain ⟨base, hne⟩ := exists_normalize_ne_of_readBack hc hpath' hread hchars.symm
      exact absurd (h base).symm hne
    · rw [← hread, hchars, hread']

/-- All spellings of a path share one key.  Texts that are spelled alike are normalized alike, from
every base directory and as base directories; and texts that are normalized alike from every base
directory are spelled alike, so no other change of a text goes unnoticed. -/
theorem spelledAlike_iff_normalize_eq (path path' : String) :
    (SpelledAlike path.toList path'.toList ↔ ∀ base, normalize path base = normalize path' base) ∧
    (SpelledAlike path.toList path'.toList →
      ∀ text, normalize text path = normalize text path') := by
  have hread : SpelledAlike path.toList path'.toList ↔ ∀ base,
      normalize path base = normalize path' base := by
    constructor
    · intro h base
      unfold normalize
      rw [h.ofChars_eq]
    · intro h
      exact spelledAlike_iff_ofChars_eq.2 (ofChars_eq_of_forall_normalize_eq h)
  refine ⟨hread, fun h text => ?_⟩
  unfold normalize
  rw [h.ofChars_eq]

/-- A path on a drive, spelled anew next to the root, between two names and at its end.  Behind `./`
it is another path, and no spelling of this one. -/
theorem spelledAlike_iff_normalize_eq_drive :
    let path := "C:/a b/c"
    let path' := "C:\\.\\a b/\\c/."
    SpelledAlike path.toList path'.toList ∧
      (∀ base, normalize path base = normalize path' base) ∧
      (∀ text, normalize text path = normalize text path') ∧
      ∃ base, normalize path base ≠ normalize ("./" ++ path) base := by
  intro path path'
  have halike : SpelledAlike path.toList path'.toList := by decide +kernel
  refine ⟨halike, (spelledAlike_iff_normalize_eq path path').1.1 halike,
    (spelledAlike_iff_normalize_eq path path').2 halike, ?_⟩
  by_contra hall
  have hdot := (spelledAlike_iff_normalize_eq path ("./" ++ path)).1.2
    fun base => by_contra fun hne => hall ⟨base, hne⟩
  revert hdot
  decide +kernel

end RepoPath

end ParseAudit
