import ParseAudit.Glob.Matching
import ParseAudit.Proofs.Glob.Beneath
/-!
# What tokens match

The octets that tokens match are put together from those that each token matches, and of all the
expressions only a few have to be looked at: those for plain text, for everything, and for
everything beneath something.

* `Token.matches_regularAll_append_iff`: tokens one after another match octets one after another;
* `Compiled.isMatch_plain_iff`: plain text matches itself alone;
* `Compiled.isMatch_beneath_iff`, `Compiled.isMatch_everything`: what `/**` and `**` match;
* `Compiled.isMatch_descend`: a pattern for everything beneath something matches what lies beneath
  its matches.
-/

namespace ParseAudit

/-! ## Octets of texts -/

namespace Octets

theorem ofText_append (a b : String) : ofText (a ++ b) = ofText a ++ ofText b := by
  unfold ofText
  rw [String.toList_append, List.flatMap_append]

/-- A text is told by its octets. -/
theorem ofText_inj {a b : String} : ofText a = ofText b ↔ a = b := by
  constructor
  · intro h
    have htext := toText?_ofText a
    rw [h, toText?_ofText b] at htext
    exact (Option.some.inj htext).symm
  · exact congrArg ofText

/-- If the octets of a text start with those of another, then the text starts with the other. -/
theorem exists_eq_append {a b : String} {rest : Octets} (h : ofText b = ofText a ++ rest) :
    ∃ more, b = a ++ more := by
  have hencode : a.toList.utf8Encode ++ rest.toByteArray = b.toList.utf8Encode := by
    have hbytes : (ofText b).toByteArray = (ofText a ++ rest).toByteArray := by rw [h]
    rw [List.toByteArray_append] at hbytes
    exact hbytes.symm
  obtain ⟨more, hmore⟩ := List.isPrefix_of_utf8Encode_append_eq_utf8Encode _ hencode
  refine ⟨String.ofList more, ?_⟩
  rw [← String.toList_inj, String.toList_append, String.toList_ofList, hmore]

/-- What stands behind a slash in the octets of a text is a text. -/
theorem exists_behind_slash_iff {a b : String} :
    (∃ rest, ofText b = ofText a ++ OctetClass.slash :: rest) ↔ ∃ more, b = a ++ "/" ++ more := by
  have hslash : ∀ rest, ofText a ++ OctetClass.slash :: rest = ofText (a ++ "/") ++ rest := by
    intro rest
    rw [ofText_append, List.append_assoc]
    rfl
  constructor
  · rintro ⟨rest, hrest⟩
    rw [hslash] at hrest
    exact exists_eq_append hrest
  · rintro ⟨more, rfl⟩
    exact ⟨ofText more, by rw [hslash, ofText_append (a ++ "/")]⟩

end Octets

/-! ## Expressions -/

namespace Regular

theorem matches_one_iff {b : UInt8} {w : Octets} : Matches (octet (.one b)) w ↔ w = [b] := by
  constructor
  · rintro (_ | ⟨hb⟩)
    rw [beq_iff_eq.1 hb]
  · rintro rfl
    exact .octet (beq_self_eq_true b)

theorem matches_seq_empty_iff {r : Regular} {w : Octets} :
    Matches (seq r empty) w ↔ Matches r w := by
  rw [matches_seq_iff]
  constructor
  · rintro ⟨u, v, rfl, hr, hv⟩
    rw [matches_empty_iff.1 hv, List.append_nil]
    exact hr
  · intro hr
    exact ⟨w, [], (List.append_nil w).symm, hr, .empty⟩

theorem matches_anything (w : Octets) : Matches (many .all) w := .many fun _ _ => rfl

end Regular

namespace Glob

open Regular

namespace Token

theorem matches_octets_iff {bs w : Octets} {next : Regular} :
    Matches (bs.foldr (fun b r => .seq (.octet (.one b)) r) next) w ↔
      ∃ v, w = bs ++ v ∧ Matches next v := by
  induction bs generalizing w with
  | nil => exact ⟨fun h => ⟨w, rfl, h⟩, fun ⟨_, hw, h⟩ => hw ▸ h⟩
  | cons b bs ih =>
    rw [List.foldr_cons, matches_seq_iff]
    constructor
    · rintro ⟨u, v, rfl, hu, hv⟩
      obtain ⟨rest, rfl, hrest⟩ := ih.1 hv
      rw [matches_one_iff.1 hu]
      exact ⟨rest, rfl, hrest⟩
    · rintro ⟨rest, rfl, hrest⟩
      exact ⟨[b], bs ++ rest, rfl, matches_one_iff.2 rfl, ih.2 ⟨rest, rfl, hrest⟩⟩

/-- A token matches octets by itself, whatever follows. -/
theorem matches_regular_iff {next : Regular} {token : Token} {w : Octets} :
    Matches (regular next token) w ↔
      ∃ u v, w = u ++ v ∧ Matches (regular .empty token) u ∧ Matches next v := by
  have hseq : ∀ r, (∀ next, regular next token = .seq r next) →
      (Matches (regular next token) w ↔
        ∃ u v, w = u ++ v ∧ Matches (regular .empty token) u ∧ Matches next v) := by
    intro r hr
    rw [hr, hr, matches_seq_iff]
    simp only [matches_seq_empty_iff]
  cases token with
  | literal c =>
    simp only [regular, matches_octets_iff, matches_empty_iff]
    constructor
    · rintro ⟨v, rfl, hv⟩
      exact ⟨_, v, rfl, ⟨[], (List.append_nil _).symm, rfl⟩, hv⟩
    · rintro ⟨_, v, rfl, ⟨_, rfl, rfl⟩, hv⟩
      exact ⟨v, by rw [List.append_nil], hv⟩
  | any => exact hseq _ fun _ => rfl
  | zeroOrMore => exact hseq _ fun _ => rfl
  | recursiveStart => exact hseq _ fun _ => rfl
  | recursiveEnd => exact hseq _ fun _ => rfl
  | recursiveMiddle => exact hseq _ fun _ => rfl
  | charClass negated ranges => exact hseq _ fun _ => rfl
  | alternates branches =>
    cases hbranches : branchRegular branches with
    | some r =>
      refine hseq r fun next => ?_
      rw [regular, hbranches]
    | none =>
      have hnext : ∀ next, regular next (.alternates branches) = next := by
        intro next
        rw [regular, hbranches]
      simp only [hnext, matches_empty_iff]
      constructor
      · exact fun h => ⟨[], w, rfl, rfl, h⟩
      · rintro ⟨_, v, rfl, rfl, hv⟩
        exact hv

/-- Tokens one after another match octets one after another. -/
theorem matches_regularAll_append_iff {front rest : List Token} {w : Octets} :
    Matches (regularAll (front ++ rest)) w ↔
      ∃ u v, w = u ++ v ∧ Matches (regularAll front) u ∧ Matches (regularAll rest) v := by
  induction front generalizing w with
  | nil =>
    rw [List.nil_append]
    constructor
    · exact fun h => ⟨[], w, rfl, .empty, h⟩
    · rintro ⟨u, v, rfl, hu, hv⟩
      rw [regularAll, matches_empty_iff] at hu
      rwa [hu]
  | cons token front ih =>
    rw [List.cons_append, regularAll, regularAll, matches_regular_iff]
    constructor
    · rintro ⟨u, v, rfl, hu, hv⟩
      obtain ⟨v₁, v₂, rfl, hfront, hrest⟩ := ih.1 hv
      refine ⟨u ++ v₁, v₂, (List.append_assoc u v₁ v₂).symm, ?_, hrest⟩
      exact matches_regular_iff.2 ⟨u, v₁, rfl, hu, hfront⟩
    · rintro ⟨w₁, v₂, rfl, hfront, hrest⟩
      obtain ⟨u, v₁, rfl, hu, hv₁⟩ := matches_regular_iff.1 hfront
      exact ⟨u, v₁ ++ v₂, List.append_assoc u v₁ v₂, hu, ih.2 ⟨v₁, v₂, rfl, hv₁, hrest⟩⟩

/-- With `/**` behind them tokens match what has one of their matches and a slash in front. -/
theorem matches_recursiveEnd_iff {ts : List Token} {w : Octets} :
    Matches (regularAll (ts ++ [.recursiveEnd])) w ↔
      ∃ u v, w = u ++ OctetClass.slash :: v ∧ Matches (regularAll ts) u := by
  have hend : ∀ v, Matches (regularAll [.recursiveEnd]) v ↔
      ∃ rest, v = OctetClass.slash :: rest := by
    intro v
    rw [regularAll, regularAll, regular, matches_seq_empty_iff, slash, matches_seq_iff]
    constructor
    · rintro ⟨u, rest, rfl, hu, -⟩
      rw [matches_one_iff.1 hu]
      exact ⟨rest, rfl⟩
    · rintro ⟨rest, rfl⟩
      exact ⟨_, rest, rfl, matches_one_iff.2 rfl, matches_anything rest⟩
  rw [matches_regularAll_append_iff]
  simp only [hend]
  constructor
  · rintro ⟨u, _, rfl, hu, rest, rfl⟩
    exact ⟨u, rest, rfl, hu⟩
  · rintro ⟨u, rest, rfl, hu⟩
    exact ⟨u, _, rfl, hu, rest, rfl⟩

/-- Plain text matches its own octets. -/
theorem matches_literals_iff {text : List Char} {w : Octets} :
    Matches (regularAll (text.map .literal)) w ↔ w = text.flatMap String.utf8EncodeChar := by
  induction text generalizing w with
  | nil => exact matches_empty_iff
  | cons c cs ih =>
    rw [List.map_cons, regularAll, regular, matches_octets_iff, List.flatMap_cons]
    simp only [ih]
    exact ⟨fun ⟨_, hw, hv⟩ => hv ▸ hw, fun hw => ⟨_, hw, rfl⟩⟩

end Token

theorem regular_of_ne {ts : List Token} (h : ts ≠ [.recursiveStart]) :
    regular ts = Token.regularAll ts := by
  unfold regular
  split
  · exact absurd rfl h
  · rfl

namespace Strategy

/-- A pattern asks for the name of the last segment only if it ends in characters of it. -/
theorem wantsName_concat_recursiveEnd (ts : List Token) :
    (ofTokens (ts ++ [.recursiveEnd])).wantsName = false := by
  have hall : ∀ (p : Token → Bool) (ts : List Token), p Token.recursiveEnd = false →
      (ts ++ [Token.recursiveEnd]).all p = false := by
    intro p ts hp
    rw [List.all_append, List.all_cons, hp, Bool.false_and, Bool.and_false]
  have hextension : ∀ ts : List Token, isExtension (ts ++ [.recursiveEnd]) = false := by
    intro ts
    unfold isExtension
    split
    · next rest heq =>
      cases ts with
      | nil => cases heq
      | cons t ts =>
        obtain ⟨-, rfl⟩ := List.cons.inj heq
        exact hall _ ts rfl
    · rfl
  have hlast : isLastText (ts ++ [.recursiveEnd]) = false := by
    unfold isLastText
    split
    · next rest heq =>
      match ts with
      | [] => cases heq
      | [t] => cases heq
      | t :: t' :: ts =>
        obtain ⟨-, heq⟩ := List.cons.inj heq
        obtain ⟨-, rfl⟩ := List.cons.inj heq
        exact hextension ts
    · next rest heq =>
      cases ts with
      | nil => cases heq
      | cons t ts =>
        obtain ⟨-, rfl⟩ := List.cons.inj heq
        show (_ && (ts ++ [Token.recursiveEnd]).all Token.isSegmentLiteral) = false
        rw [hall Token.isSegmentLiteral ts rfl, Bool.and_false]
    · rfl
  have hends : endsInExtension (ts ++ [.recursiveEnd]) = false := by
    unfold endsInExtension
    rw [List.reverse_append]
    rfl
  unfold ofTokens
  rw [hlast, hends]
  grind [wantsName]

theorem wantsName_literals (text : List Char) :
    (ofTokens (text.map .literal)).wantsName = false := by
  cases text with
  | nil => rfl
  | cons c cs =>
    have hall : ∀ front : List Char, (front.map Token.literal).all Token.isLiteral = true := by
      intro front
      rw [List.all_map, List.all_eq_true]
      exact fun _ _ => rfl
    have htext : isText ((c :: cs).map .literal) = true := by
      unfold isText
      split
      · next heq => cases heq
      · split
        · next heq =>
          have hmem : Token.recursiveEnd ∈ ((c :: cs).map Token.literal).reverse := by
            rw [heq]
            exact List.mem_cons_self
          rw [List.mem_reverse, List.mem_map] at hmem
          obtain ⟨_, -, hliteral⟩ := hmem
          cases hliteral
        · rw [hall]
          rfl
    have hlast : isLastText ((c :: cs).map .literal) = false := rfl
    unfold ofTokens
    rw [hlast, htext]
    rfl

end Strategy

namespace Compiled

theorem isMatch_iff_of_not_wantsName {ts : List Token}
    (h : (Strategy.ofTokens ts).wantsName = false) {path : String} :
    (ofTokens ts).isMatch path = true ↔ Matches (Glob.regular ts) (Octets.ofText path) := by
  unfold isMatch ofTokens
  dsimp only
  rw [h, Bool.false_and, Bool.not_false, Bool.and_true, accepts_iff]

theorem matches_of_isMatch {g : Compiled} {path : String} (h : g.isMatch path = true) :
    Matches g.regular (Octets.ofText path) := by
  unfold isMatch at h
  exact accepts_iff.1 (Bool.and_eq_true_iff.1 h).1

/-- `**` matches everything. -/
theorem isMatch_everything (path : String) :
    (ofTokens [.recursiveStart]).isMatch path = true :=
  (isMatch_iff_of_not_wantsName rfl).2 (matches_anything _)

theorem isMatch_beneath_iff {ts : List Token} {path : String} :
    (ofTokens (ts ++ [.recursiveEnd])).isMatch path = true ↔
      ∃ u v, Octets.ofText path = u ++ OctetClass.slash :: v ∧
        Matches (Token.regularAll ts) u := by
  rw [isMatch_iff_of_not_wantsName (Strategy.wantsName_concat_recursiveEnd ts), regular_of_ne,
    Token.matches_recursiveEnd_iff]
  intro heq
  have hlast := congrArg List.getLast? heq
  rw [List.getLast?_concat] at hlast
  cases hlast

/-- Plain text matches itself alone. -/
theorem isMatch_plain_iff {text path : String} :
    (ofTokens (text.toList.map .literal)).isMatch path = true ↔ path = text := by
  rw [isMatch_iff_of_not_wantsName (Strategy.wantsName_literals _), regular_of_ne,
    Token.matches_literals_iff]
  · exact Octets.ofText_inj
  · exact map_literal_ne_recursiveStart _

/-- What lies beneath a match of a pattern is matched by the pattern with `/**` behind it. -/
theorem isMatch_beneath {ts : List Token} (hne : ts ≠ [.recursiveStart]) {path : String}
    (h : (ofTokens ts).isMatch path = true) (rest : String) :
    (ofTokens (ts ++ [.recursiveEnd])).isMatch (path ++ "/" ++ rest) = true := by
  have hmatch : Matches (Glob.regular ts) (Octets.ofText path) := matches_of_isMatch h
  rw [regular_of_ne hne] at hmatch
  refine isMatch_beneath_iff.2 ⟨Octets.ofText path, Octets.ofText rest, ?_, hmatch⟩
  rw [Octets.ofText_append, Octets.ofText_append, List.append_assoc]
  rfl

/-- What lies beneath a match of a pattern for everything beneath something is a match too. -/
theorem isMatch_descend {ts : List Token} (hasks : AsksBeneath ts) {path : String}
    (h : (ofTokens ts).isMatch path = true) (rest : String) :
    (ofTokens ts).isMatch (path ++ "/" ++ rest) = true := by
  rcases hasks with rfl | ⟨front, rfl⟩
  · exact isMatch_everything _
  · obtain ⟨u, v, hpath, hu⟩ := isMatch_beneath_iff.1 h
    refine isMatch_beneath_iff.2 ⟨u, v ++ OctetClass.slash :: Octets.ofText rest, ?_, hu⟩
    rw [Octets.ofText_append, Octets.ofText_append, hpath, List.append_assoc, List.append_assoc]
    rfl

end Compiled

end Glob

end ParseAudit
