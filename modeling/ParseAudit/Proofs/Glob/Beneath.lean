import ParseAudit.Proofs.Glob.Validity
/-!
# Reading the pattern for everything beneath a pattern

Everything beneath the matches of a pattern is asked for by the same pattern with `/**` behind it.
Its tokens are those of the pattern and one more, unless the pattern asks for everything beneath
something already: then they are the same.

* `readClass_cons_cases`, `exists_class`, `State.readDoubleStar_append`: reading a longer text;
* `State.Settled`: a `**` in front of a pattern is its only token so far, and its slash was read;
* `State.Reads`, `State.exists_reads`: one step, in which a start of the text is read;
* `State.read_beneath`: what the steps lead to with `/**` behind the text;
* `tokens_plain`: the tokens of a text without a mark;
* `tokens_beneath`: the tokens of a pattern with `/**` behind it.
-/

namespace ParseAudit.Glob

/-- The text that asks for everything beneath what stands in front of it. -/
def beneathText : List Char := ['/', '*', '*']

/-! ## Longer texts -/

/-- A character closes a class, or it is a member of one, or it is at fault. -/
theorem readClass_cons_cases (first inRange : Bool) (ranges : List (Char × Char)) (c : Char) :
    (c = ']' ∧ ∃ out, ∀ cs, readClass first inRange ranges (c :: cs) = .ok (out, cs)) ∨
      (∃ f i rs, ∀ cs, readClass first inRange ranges (c :: cs) = readClass f i rs cs) ∨
      ∃ fault, ∀ cs, readClass first inRange ranges (c :: cs) = .error fault := by
  by_cases hclose : (c == ']' && !first) = true
  · left
    refine ⟨beq_iff_eq.1 (Bool.and_eq_true_iff.1 hclose).1,
      (if inRange then ('-', '-') :: ranges else ranges).reverse, fun cs => ?_⟩
    unfold readClass
    rw [if_pos hclose]
  right
  by_cases hdash : (c == '-' && !first && !inRange) = true
  · refine .inl ⟨false, true, ranges, fun cs => ?_⟩
    conv => lhs; unfold readClass
    rw [if_neg hclose, if_pos hdash]
  cases inRange with
  | false =>
    refine .inl ⟨false, false, (c, c) :: ranges, fun cs => ?_⟩
    conv => lhs; unfold readClass
    exact (if_neg hclose).trans (if_neg hdash)
  | true =>
    cases ranges with
    | nil =>
      refine .inl ⟨false, false, [(c, c)], fun cs => ?_⟩
      conv => lhs; unfold readClass
      exact (if_neg hclose).trans (if_neg hdash)
    | cons range others =>
      by_cases horder : c < range.1
      · refine .inr ⟨.invalidRange range.1 c, fun cs => ?_⟩
        unfold readClass
        exact (if_neg hclose).trans ((if_neg hdash).trans (if_pos horder))
      · refine .inl ⟨false, false, (range.1, c) :: others, fun cs => ?_⟩
        conv => lhs; unfold readClass
        exact (if_neg hclose).trans ((if_neg hdash).trans (if_neg horder))

/-- A class is read from its own characters, whatever follows. -/
theorem exists_class {first inRange : Bool} {ranges out : List (Char × Char)}
    {text rest : List Char} (h : readClass first inRange ranges text = .ok (out, rest)) :
    ∃ body, text = body ++ ']' :: rest ∧
      ∀ more, readClass first inRange ranges (body ++ ']' :: more) = .ok (out, more) := by
  induction text generalizing first inRange ranges with
  | nil => cases h
  | cons c cs ih =>
    rcases readClass_cons_cases first inRange ranges c with
      ⟨rfl, ranges', hclose⟩ | ⟨f, i, rs, hmember⟩ | ⟨fault, hfault⟩
    · rw [hclose] at h
      cases h
      exact ⟨[], rfl, hclose⟩
    · rw [hmember] at h
      obtain ⟨body, rfl, hbody⟩ := ih h
      refine ⟨c :: body, rfl, fun more => ?_⟩
      rw [List.cons_append, hmember, hbody]
    · rw [hfault] at h
      cases h

/-- A class with its negation, if it has one. -/
theorem exists_negated_class {ranges : List (Char × Char)} {text rest : List Char}
    (h : readClass true false [] (splitNegation text).2 = .ok (ranges, rest)) :
    ∃ body, text = body ++ ']' :: rest ∧
      ∀ more, (splitNegation (body ++ ']' :: more)).1 = (splitNegation text).1 ∧
        readClass true false [] (splitNegation (body ++ ']' :: more)).2 = .ok (ranges, more) := by
  obtain ⟨body, hbody, hread⟩ := exists_class h
  have hnegation : ∃ mark, text = mark ++ (splitNegation text).2 ∧
      ∀ more, splitNegation (mark ++ (body ++ ']' :: more)) =
        ((splitNegation text).1, body ++ ']' :: more) := by
    unfold splitNegation at hbody ⊢
    split at hbody
    · exact ⟨['!'], rfl, fun more => rfl⟩
    · exact ⟨['^'], rfl, fun more => rfl⟩
    · next hbang hcaret =>
      refine ⟨[], rfl, fun more => ?_⟩
      cases body with
      | nil => rfl
      | cons c cs =>
        have hc : ¬(c = '!' ∨ c = '^') := by
          rintro (rfl | rfl)
          · exact hbang _ hbody
          · exact hcaret _ hbody
        exact splitNegation_cons hc _
  obtain ⟨mark, htext, hmark⟩ := hnegation
  refine ⟨mark ++ body, ?_, fun more => ?_⟩
  · rw [List.append_assoc, ← hbody]
    exact htext
  · rw [List.append_assoc, hmark]
    exact ⟨rfl, hread more⟩

namespace State

theorem push_branch (s : State) (token : Token) :
    (s.push token).current.branch = token :: s.current.branch := rfl

/-- What two stars are read as is settled by the next character. -/
theorem readDoubleStar_append (s : State) (before : Option Char) {text : List Char}
    (h : text ≠ []) (more : List Char) :
    s.readDoubleStar before (text ++ more) =
      ((s.readDoubleStar before text).1, (s.readDoubleStar before text).2.1,
        (s.readDoubleStar before text).2.2 ++ more) := by
  obtain ⟨c, cs, rfl⟩ := List.exists_cons_of_ne_nil h
  rw [List.cons_append]
  unfold readDoubleStar
  grind

/-- The last character that is read with two stars is a star, or a slash behind them. -/
theorem readDoubleStar_last (s : State) (before : Option Char) (text : List Char) :
    ∃ front, '*' :: '*' :: text =
      front ++ (s.readDoubleStar before text).2.1 :: (s.readDoubleStar before text).2.2 := by
  have hlast : (s.readDoubleStar before text).2.1 = '*' ∧
        text = (s.readDoubleStar before text).2.2 ∨
      (s.readDoubleStar before text).2.1 = '/' ∧
        text = '/' :: (s.readDoubleStar before text).2.2 := by
    unfold readDoubleStar
    grind
  rcases hlast with ⟨hstar, htext⟩ | ⟨hslash, htext⟩
  · rw [hstar, ← htext]
    exact ⟨['*'], rfl⟩
  · rw [hslash, ← htext]
    exact ⟨['*', '*'], rfl⟩

/-! ## A pattern that starts with two stars -/

/-- Outside of groups, a `**` in front stands alone until something else is read, and what was read
last is the slash behind it. -/
def Settled (s : State) (before : Option Char) : Prop :=
  s.outer = [] → s.current.branch.head? = some .recursiveStart →
    s.current.branch = [.recursiveStart] ∧ before = some '/'

theorem settled_push (s : State) (token : Token) (before : Option Char)
    (h : token ≠ .recursiveStart := by simp) : (s.push token).Settled before :=
  fun _ hhead => absurd (Option.some.inj hhead) h

theorem settled_closeGroup {s next : State} (h : s.closeGroup = .ok next)
    (before : Option Char) : next.Settled before := by
  unfold closeGroup at h
  split at h
  · cases h
  · cases h
    exact settled_push _ (.alternates _) before

theorem settled_comma (s : State) (before : Option Char) :
    (if s.inGroup then s.nextBranch else s.push (.literal ',')).Settled before := by
  split
  · intro _ hhead
    cases hhead
  · exact settled_push s (.literal ',') before

/-- What is put in the place of a slash is not a `**` in front. -/
theorem replaceSlash_cases (s : State) (token : Token) :
    s.replaceSlash token = s ∧ (s.current.branch.head? = some .recursiveStart ∨
        s.current.branch.head? = some .recursiveEnd) ∨
      (s.replaceSlash token).current.branch = token :: s.current.branch.tail := by
  unfold replaceSlash
  split
  · next h => exact .inl ⟨rfl, .inl (by rw [h]; rfl)⟩
  · next h => exact .inl ⟨rfl, .inr (by rw [h]; rfl)⟩
  · next h => exact .inr (by rw [h]; rfl)
  · next h => exact .inr (by rw [push_branch, h]; rfl)

theorem settled_replaceSlash {s : State} {before : Option Char} {token : Token}
    (h : s.Settled before) (htoken : token ≠ .recursiveStart) :
    (s.replaceSlash token).Settled (some '/') := by
  rcases replaceSlash_cases s token with ⟨hsame, -⟩ | hbranch
  · rw [hsame]
    exact fun houter hhead => ⟨(h houter hhead).1, rfl⟩
  · intro _ hhead
    rw [hbranch] at hhead
    exact absurd (Option.some.inj hhead) htoken

theorem settled_readDoubleStar {s : State} {before : Option Char} (h : s.Settled before)
    {text : List Char} (htext : text ≠ []) :
    (s.readDoubleStar before text).1.Settled (some (s.readDoubleStar before text).2.1) := by
  obtain ⟨c, cs, rfl⟩ := List.exists_cons_of_ne_nil htext
  have hstars : ∀ last, ((s.push .zeroOrMore).push .zeroOrMore).Settled last := by
    intro last
    exact settled_push _ .zeroOrMore last
  unfold readDoubleStar
  split
  · next hempty =>
    split
    · next heq => cases heq
    · intro _ _
      have hbranch : (s.push .recursiveStart).current.branch = [.recursiveStart] := by
        rw [push_branch, List.isEmpty_iff.1 hempty]
      exact ⟨hbranch, rfl⟩
    · exact hstars _
  · split
    · exact hstars _
    · split
      · next heq => cases heq
      · exact settled_replaceSlash h (by simp)
      · split
        · next hgroup =>
          -- Within a group nothing is asked for.
          intro houter
          rw [replaceSlash_outer] at houter
          rw [inGroup, houter] at hgroup
          simp at hgroup
        · exact hstars _

/-! ## Single steps -/

@[simp] theorem read_nil (s : State) (before : Option Char) : s.read before [] = .ok s := by
  rw [read]

/-- The marks of a pattern.  A comma is one too within a group. -/
def markChars : List Char := ['?', '*', '[', '{', '}', '\\']

/-- Any other character stands for itself. -/
theorem read_literal {c : Char} (h : c ∉ markChars) (hcomma : c ≠ ',') (s : State)
    (before : Option Char) (cs : List Char) :
    s.read before (c :: cs) = (s.push (.literal c)).read (some c) cs := by
  simp only [markChars, List.mem_cons, List.not_mem_nil, or_false, not_or] at h
  obtain ⟨hany, hstar, hclass, hopen, hclose, hescape⟩ := h
  rw [read]
  · exact hany
  · exact fun _ heq _ => hstar heq
  · exact hstar
  · exact hclass
  · exact hopen
  · exact hclose
  · exact hcomma
  · exact fun heq _ => hescape heq
  · exact fun _ _ heq _ => hescape heq

theorem read_doubleStar (s : State) (before : Option Char) (cs : List Char) :
    s.read before ('*' :: '*' :: cs) =
      (s.readDoubleStar before cs).1.read (some (s.readDoubleStar before cs).2.1)
        (s.readDoubleStar before cs).2.2 := by
  rw [read]

/-- Outside of groups a text without a mark is read as it stands. -/
theorem read_plain {text : List Char} (h : ∀ c ∈ text, c ∉ markChars) (before : Option Char)
    (branch : List Token) (finished : List (List Token)) :
    read ⟨⟨branch, finished⟩, []⟩ before text =
      .ok ⟨⟨(text.map .literal).reverse ++ branch, finished⟩, []⟩ := by
  induction text generalizing before branch with
  | nil => exact read_nil _ _
  | cons c cs ih =>
    have hstep : read ⟨⟨branch, finished⟩, []⟩ before (c :: cs) =
        read ⟨⟨.literal c :: branch, finished⟩, []⟩ (some c) cs := by
      by_cases hcomma : c = ','
      · rw [hcomma, read]
        rfl
      · exact read_literal (h c List.mem_cons_self) hcomma _ _ _
    rw [hstep, ih fun d hd => h d (List.mem_cons_of_mem c hd)]
    simp

theorem readDoubleStar_start {s : State} (h : s.current.branch = []) (before : Option Char)
    (cs : List Char) :
    s.readDoubleStar before [] = (s.push .recursiveStart, '*', []) ∧
      s.readDoubleStar before ('/' :: cs) = (s.push .recursiveStart, '/', cs) := by
  unfold readDoubleStar
  simp [h]

theorem readDoubleStar_slash {s : State} (h : s.current.branch ≠ []) (cs : List Char) :
    s.readDoubleStar (some '/') [] = (s.replaceSlash .recursiveEnd, '*', []) ∧
      s.readDoubleStar (some '/') ('/' :: cs) = (s.replaceSlash .recursiveMiddle, '/', cs) := by
  unfold readDoubleStar
  simp [h]

theorem readDoubleStar_stars {s : State} (h : s.current.branch ≠ []) (houter : s.outer = [])
    {before : Option Char} (hbefore : before ≠ some '/') (cs : List Char) :
    s.readDoubleStar before cs = ((s.push .zeroOrMore).push .zeroOrMore, '*', cs) := by
  unfold readDoubleStar
  simp [h, hbefore, inGroup, houter]

/-! ## A pattern with `/**` behind it -/

/-- The last character that was read after a text. -/
def lastRead (before : Option Char) (text : List Char) : Option Char := text.getLast?.or before

theorem lastRead_cons (before : Option Char) (c : Char) (cs : List Char) :
    lastRead before (c :: cs) = lastRead (some c) cs := by
  cases h : cs.getLast? <;> simp [lastRead, List.getLast?_cons, h]

theorem lastRead_append (before : Option Char) (front : List Char) (c : Char) (rest : List Char) :
    lastRead before (front ++ c :: rest) = lastRead (some c) rest := by
  induction front generalizing before with
  | nil => exact lastRead_cons before c rest
  | cons d front ih => rw [List.cons_append, lastRead_cons, ih]

/-- What `/**` at the end of a text does to the branch that was read before: it adds a token, unless
the branch is everything already or ends with everything beneath something. -/
def ReadBeneath (s next : State) : Prop :=
  next.outer = [] ∧
    (next.current.branch = .recursiveEnd :: s.current.branch ∧
        s.current.branch ≠ [.recursiveStart] ∨
      next.current.branch = s.current.branch ∧
        (s.current.branch = [.recursiveStart] ∨
          s.current.branch.head? = some .recursiveEnd))

/-- Behind other text a `/**` is one more token. -/
theorem read_beneathText {s : State} {before : Option Char} (houter : s.outer = [])
    (h : s.current.branch ≠ [.recursiveStart]) :
    ∃ next, s.read before beneathText = .ok next ∧ ReadBeneath s next := by
  refine ⟨(s.push (.literal '/')).replaceSlash .recursiveEnd, ?_, houter, .inl ⟨rfl, h⟩⟩
  have hbranch : (s.push (.literal '/')).current.branch ≠ [] := List.cons_ne_nil _ _
  rw [beneathText, read_literal (by decide) (by decide), read_doubleStar,
    (readDoubleStar_slash hbranch []).1, read_nil]

/-- A `**` that asks for everything, or for everything beneath something, takes a further one in. -/
theorem replaceSlash_twice (s : State) :
    (s.replaceSlash .recursiveMiddle).replaceSlash .recursiveEnd =
      s.replaceSlash .recursiveEnd := by
  obtain ⟨⟨branch, finished⟩, outer⟩ := s
  rcases branch with _ | ⟨token, branch⟩
  · rfl
  · cases token <;> rfl

/-- Two stars at the end of a text stand in front of the slash of a `/**` as well. -/
theorem read_doubleStar_beneathText {s : State} {before : Option Char} (hsettled : s.Settled before)
    (houter : s.outer = []) :
    ∃ next, s.read before ('*' :: '*' :: beneathText) = .ok next ∧
      ReadBeneath (s.readDoubleStar before []).1 next := by
  by_cases hbranch : s.current.branch = []
  · -- The pattern is `**`, and so it stays.
    obtain ⟨hend, hslash⟩ := readDoubleStar_start hbranch before ['*', '*']
    have hpush : (s.push .recursiveStart).current.branch = [.recursiveStart] := by
      rw [push_branch, hbranch]
    have hkeep : (s.push .recursiveStart).replaceSlash .recursiveEnd = s.push .recursiveStart := by
      rw [replaceSlash, hpush]
    refine ⟨s.push .recursiveStart, ?_, ?_⟩
    · rw [read_doubleStar, beneathText, hslash, read_doubleStar,
        (readDoubleStar_slash (by rw [hpush]; exact List.cons_ne_nil _ _) []).1, read_nil, hkeep]
    · rw [hend]
      exact ⟨houter, .inr ⟨rfl, .inl hpush⟩⟩
  by_cases hbefore : before = some '/'
  · subst hbefore
    obtain ⟨hend, hslash⟩ := readDoubleStar_slash hbranch ['*', '*']
    have hmiddle : (s.replaceSlash .recursiveMiddle).current.branch ≠ [] := by
      rcases replaceSlash_cases s .recursiveMiddle with ⟨hsame, -⟩ | hreplaced
      · rwa [hsame]
      · rw [hreplaced]
        exact List.cons_ne_nil _ _
    refine ⟨s.replaceSlash .recursiveEnd, ?_, ?_⟩
    · rw [read_doubleStar, beneathText, hslash, read_doubleStar,
        (readDoubleStar_slash hmiddle []).1, read_nil, replaceSlash_twice]
    · rw [hend]
      refine ⟨(replaceSlash_outer s _).trans houter, .inr ⟨rfl, ?_⟩⟩
      rcases replaceSlash_cases s .recursiveEnd with ⟨hsame, hstart | hend⟩ | hreplaced
      · rw [hsame]
        exact .inl (hsettled houter hstart).1
      · rw [hsame]
        exact .inr hend
      · rw [hreplaced]
        exact .inr rfl
  · have hstars := readDoubleStar_stars hbranch houter hbefore
    rw [read_doubleStar, hstars, hstars]
    exact read_beneathText houter (by simp [push_branch])

/-! ### Reading step by step -/

/-- A start of a text is read, whatever stands behind the text, unless a further star does. -/
structure Reads (s : State) (before : Option Char) (text : List Char) (next : State) (last : Char)
    (rest : List Char) : Prop where
  /-- The last character that is read stands in front of the rest. -/
  ends : ∃ front, text = front ++ last :: rest
  read_append : ∀ more : List Char, more.head? ≠ some '*' →
    s.read before (text ++ more) = next.read (some last) (rest ++ more)
  settled : s.Settled before → next.Settled (some last)

section Reads

variable {s : State} {before : Option Char} {cs : List Char}

theorem reads_any : Reads s before ('?' :: cs) (s.push .any) '?' cs where
  ends := ⟨[], rfl⟩
  read_append _ _ := by rw [List.cons_append, read]
  settled _ := settled_push s .any _

theorem reads_doubleStar (h : cs ≠ []) :
    Reads s before ('*' :: '*' :: cs) (s.readDoubleStar before cs).1
      (s.readDoubleStar before cs).2.1 (s.readDoubleStar before cs).2.2 where
  ends := readDoubleStar_last s before cs
  read_append more _ := by
    rw [List.cons_append, List.cons_append, read_doubleStar, readDoubleStar_append s before h]
  settled hsettled := settled_readDoubleStar hsettled h

theorem reads_star (h : cs.head? ≠ some '*') :
    Reads s before ('*' :: cs) (s.push .zeroOrMore) '*' cs where
  ends := ⟨[], rfl⟩
  read_append more hmore := by
    rw [List.cons_append, read]
    intro tail htail
    cases cs with
    | nil => exact hmore (by rw [← List.nil_append more, htail]; rfl)
    | cons c cs => exact h (congrArg List.head? htail)
  settled _ := settled_push s .zeroOrMore _

theorem reads_class {ranges : List (Char × Char)} {rest : List Char}
    (h : readClass true false [] (splitNegation cs).2 = .ok (ranges, rest)) :
    Reads s before ('[' :: cs) (s.push (.charClass (splitNegation cs).1 ranges)) ']' rest := by
  obtain ⟨body, rfl, hbody⟩ := exists_negated_class h
  refine ⟨⟨'[' :: body, rfl⟩, fun more _ => ?_, fun _ => settled_push s (.charClass _ ranges) _⟩
  obtain ⟨hnegated, hread⟩ := hbody (rest ++ more)
  rw [List.cons_append, List.append_assoc, List.cons_append, read, hread]
  dsimp only
  rw [hnegated]

theorem reads_open : Reads s before ('{' :: cs) s.openGroup '{' cs where
  ends := ⟨[], rfl⟩
  read_append _ _ := by rw [List.cons_append, read]
  settled _ := fun houter => absurd houter (List.cons_ne_nil _ _)

theorem reads_close {next : State} (h : s.closeGroup = .ok next) :
    Reads s before ('}' :: cs) next '}' cs where
  ends := ⟨[], rfl⟩
  read_append _ _ := by rw [List.cons_append, read, h]
  settled _ := settled_closeGroup h _

theorem reads_comma :
    Reads s before (',' :: cs) (if s.inGroup then s.nextBranch else s.push (.literal ',')) ','
      cs where
  ends := ⟨[], rfl⟩
  read_append _ _ := by rw [List.cons_append, read]
  settled _ := settled_comma s _

theorem reads_escaped {c : Char} :
    Reads s before ('\\' :: c :: cs) (s.push (.literal c)) c cs where
  ends := ⟨['\\'], rfl⟩
  read_append _ _ := by rw [List.cons_append, List.cons_append, read]
  settled _ := settled_push s (.literal c) _

theorem reads_literal {c : Char} (h : c ∉ markChars) (hcomma : c ≠ ',') :
    Reads s before (c :: cs) (s.push (.literal c)) c cs where
  ends := ⟨[], rfl⟩
  read_append _ _ := read_literal h hcomma s before _
  settled _ := settled_push s (.literal c) _

end Reads

/-- A text that is read without a fault has a start that is read first, unless nothing is left of it
or two stars, which a slash behind them would change. -/
theorem exists_reads {s s' : State} {before : Option Char} {text : List Char}
    (h : s.read before text = .ok s') (hne : text ≠ []) (hstars : text ≠ ['*', '*']) :
    ∃ next last rest, Reads s before text next last rest := by
  fun_cases State.read s before text with
  | case1 => exact absurd rfl hne
  | case2 cs => exact ⟨_, _, _, reads_any⟩
  | case3 cs next last rest _ =>
    refine ⟨_, _, _, reads_doubleStar ?_⟩
    rintro rfl
    exact hstars rfl
  | case4 cs hstar =>
    refine ⟨_, _, _, reads_star fun hhead => ?_⟩
    obtain ⟨tail, rfl⟩ := List.head?_eq_some_iff.1 hhead
    exact hstar tail rfl
  | case5 cs fault hclass =>
    rw [read, hclass] at h
    cases h
  | case6 cs ranges rest hclass => exact ⟨_, _, _, reads_class hclass⟩
  | case7 cs => exact ⟨_, _, _, reads_open⟩
  | case8 cs fault hclose =>
    rw [read, hclose] at h
    cases h
  | case9 cs next hclose => exact ⟨_, _, _, reads_close hclose⟩
  | case10 cs => exact ⟨_, _, _, reads_comma⟩
  | case11 =>
    rw [read] at h
    cases h
  | case12 c cs => exact ⟨_, _, _, reads_escaped⟩
  | case13 c cs hany hstars hstar hclass hopen hclose hcomma hescape hescape' =>
    refine ⟨_, _, _, reads_literal ?_ hcomma⟩
    simp only [markChars, List.mem_cons, List.not_mem_nil, or_false, not_or]
    refine ⟨hany, hstar, hclass, hopen, hclose, ?_⟩
    rintro rfl
    cases cs with
    | nil => exact hescape rfl rfl
    | cons d ds => exact hescape' d ds rfl rfl

/-- A pattern is read as before when `/**` is put behind it, and then one token is added, unless the
pattern asks for everything beneath something already. -/
theorem read_beneath {s s' : State} {before : Option Char} {text : List Char}
    (hsettled : s.Settled before) (h : s.read before text = .ok s') (houter : s'.outer = [])
    (hlast : s'.current.branch = [.recursiveStart] → lastRead before text ≠ some '/') :
    ∃ next, s.read before (text ++ beneathText) = .ok next ∧ ReadBeneath s' next := by
  -- Each step reads a start of the text, so the induction is on its length.
  induction hlength : text.length using Nat.strongRecOn generalizing s before text with
  | ind n ih =>
  by_cases hne : text = []
  · subst hne
    rw [read_nil] at h
    cases h
    refine read_beneathText houter fun hbranch => hlast hbranch ?_
    exact (hsettled houter (by rw [hbranch]; rfl)).2
  by_cases hstars : text = ['*', '*']
  · subst hstars
    obtain ⟨hsame, hrest⟩ := readDoubleStar_cases s before []
    rw [read_doubleStar, ← hrest.resolve_right (List.cons_ne_nil _ _).symm, read_nil] at h
    cases h
    exact read_doubleStar_beneathText hsettled (hsame.symm.trans houter)
  obtain ⟨next, last, rest, hreads⟩ := exists_reads h hne hstars
  have hread := hreads.read_append [] nofun
  have hbeneath := hreads.read_append beneathText (by decide)
  obtain ⟨front, htext⟩ := hreads.ends
  rw [List.append_nil, List.append_nil, h] at hread
  rw [htext, lastRead_append] at hlast
  rw [hbeneath]
  refine ih _ ?_ (hreads.settled hsettled) hread.symm hlast rfl
  rw [← hlength, htext, List.length_append, List.length_cons]
  omega

end State

/-! ## Tokens -/

theorem tokens_eq_ok {text : List Char} {ts : List Token} (h : tokens text = .ok ts) :
    ∃ s, State.start.read none text = .ok s ∧ s.outer = [] ∧ ts = s.current.branch.reverse := by
  unfold tokens at h
  cases hread : State.start.read none text with
  | error fault => rw [hread] at h; cases h
  | ok s =>
    have hgroup : (if s.inGroup then .error .unclosedAlternates else .ok s.current.branch.reverse) =
        Except.ok (ε := Fault) ts := by rw [← h, hread]; rfl
    split at hgroup
    · cases hgroup
    · next hopen =>
      cases hgroup
      exact ⟨s, rfl, by simpa [State.inGroup] using hopen, rfl⟩

theorem tokens_of_read {text : List Char} {s : State} (h : State.start.read none text = .ok s)
    (houter : s.outer = []) : tokens text = .ok s.current.branch.reverse := by
  have hclosed : s.inGroup = false := by rw [State.inGroup, houter]; rfl
  unfold tokens
  rw [h]
  show (if s.inGroup = true then _ else _) = _
  rw [hclosed]
  rfl

/-- A text without a mark is plain text. -/
theorem tokens_plain {text : List Char} (h : ∀ c ∈ text, c ∉ State.markChars) :
    tokens text = .ok (text.map .literal) := by
  have hread := State.read_plain h none [] []
  rw [tokens_of_read hread rfl]
  simp

theorem map_literal_ne_recursiveStart (text : List Char) :
    text.map Token.literal ≠ [.recursiveStart] := by
  intro h
  cases text with
  | nil => cases h
  | cons c cs => cases h

/-- `**` alone is one token. -/
theorem tokens_doubleStar : tokens ['*', '*'] = .ok [.recursiveStart] := by
  have hread : State.start.read none ['*', '*'] = .ok (State.start.push .recursiveStart) := by
    rw [State.read_doubleStar, (State.readDoubleStar_start rfl none []).1, State.read_nil]
  exact tokens_of_read hread rfl

/-- Whether tokens ask for everything, or for everything beneath something. -/
def AsksBeneath (ts : List Token) : Prop :=
  ts = [.recursiveStart] ∨ ∃ front, ts = front ++ [.recursiveEnd]

theorem not_asksBeneath_literals (text : List Char) : ¬AsksBeneath (text.map .literal) := by
  rintro (hstart | ⟨front, hend⟩)
  · exact map_literal_ne_recursiveStart text hstart
  · have hmem : Token.recursiveEnd ∈ text.map Token.literal := by
      rw [hend]
      exact List.mem_append_right front (List.mem_singleton_self _)
    obtain ⟨_, -, hliteral⟩ := List.mem_map.1 hmem
    cases hliteral

/-- Tokens that ask for what lies beneath something are those of the pattern with `/**` behind it;
to others it adds a token.  Only a pattern that ends in a slash can be `**` otherwise. -/
theorem tokens_beneath {text : List Char} {ts : List Token} (h : tokens text = .ok ts)
    (hlast : ts = [.recursiveStart] → text.getLast? ≠ some '/') :
    tokens (text ++ beneathText) = .ok (ts ++ [.recursiveEnd]) ∧ ts ≠ [.recursiveStart] ∨
      tokens (text ++ beneathText) = .ok ts ∧ AsksBeneath ts := by
  obtain ⟨s, hread, houter, rfl⟩ := tokens_eq_ok h
  have hstart : State.start.Settled none := by
    intro _ hhead
    cases hhead
  have hlastRead : s.current.branch = [.recursiveStart] →
      State.lastRead none text ≠ some '/' := by
    intro hbranch
    have hslash := hlast (by rw [hbranch]; rfl)
    rwa [State.lastRead, Option.or_none]
  obtain ⟨next, hnext, hnextOuter, hbranch⟩ := State.read_beneath hstart hread houter hlastRead
  rw [tokens_of_read hnext hnextOuter]
  rcases hbranch with ⟨hadded, hother⟩ | ⟨hsame, hasks⟩
  · left
    rw [hadded, List.reverse_cons]
    refine ⟨rfl, fun heq => hother ?_⟩
    rw [← List.reverse_inj, heq]
    rfl
  · right
    rw [hsame]
    refine ⟨rfl, ?_⟩
    rcases hasks with hall | hend
    · rw [hall]
      exact .inl rfl
    · obtain ⟨front, hfront⟩ := List.head?_eq_some_iff.1 hend
      rw [hfront, List.reverse_cons]
      exact .inr ⟨front.reverse, rfl⟩

end ParseAudit.Glob
