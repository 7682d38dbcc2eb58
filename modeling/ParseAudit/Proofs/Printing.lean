import ParseAudit.Proofs.Action
/-!
# What actions print

What one action prints after another stands behind it, and an action that is `Silent` prints
nothing.  Lines are written up to the first one that the console refuses.

* `printed_bind_of_gives`, `printed_bind_of_silent`: the output of one action after another;
* `Console.Takes`: the console takes some lines;
* `Writes`: actions that write some lines and do nothing else, with `writes_writeLines` and
  `Writes.bind`.
-/

namespace ParseAudit

/-- Lines in one text. -/
def textOf (lines : List String) : String := String.join (lines.map (· ++ "\n"))

theorem textOf_append (lines rest : List String) :
    textOf (lines ++ rest) = textOf lines ++ textOf rest := by
  rw [textOf, List.map_append, String.join_append]
  rfl

theorem textOf_singleton (line : String) : textOf [line] = line ++ "\n" := by
  rw [textOf, List.map_singleton, String.join_cons]
  exact String.append_empty

/-- A console takes some lines, after what was written before. -/
def Console.Takes (console : Console) : String → List String → Prop
  | _, [] => True
  | before, line :: rest =>
    console.refusal? before (line ++ "\n") = none ∧ console.Takes (before ++ (line ++ "\n")) rest

instance Console.decidableTakes (console : Console) :
    (before : String) → (lines : List String) → Decidable (console.Takes before lines)
  | _, [] => isTrue trivial
  | before, line :: rest =>
    have := console.decidableTakes (before ++ (line ++ "\n")) rest
    inferInstanceAs (Decidable (_ ∧ _))

theorem Console.takes_append_iff {console : Console} {before : String} {lines rest : List String} :
    console.Takes before (lines ++ rest) ↔
      console.Takes before lines ∧ console.Takes (before ++ textOf lines) rest := by
  induction lines generalizing before with
  | nil => simp [Takes, textOf]
  | cons line lines ih =>
    have htext : textOf (line :: lines) = line ++ "\n" ++ textOf lines := by
      rw [← textOf_singleton line, ← textOf_append, List.singleton_append]
    have happend : before ++ (line ++ "\n" ++ textOf lines) =
        before ++ (line ++ "\n") ++ textOf lines := String.append_assoc.symm
    rw [List.cons_append, Takes, Takes, ih, htext, happend, and_assoc]

theorem Console.takes_working (before : String) (lines : List String) :
    Console.working.Takes before lines := by
  induction lines generalizing before with
  | nil => trivial
  | cons line lines ih => exact ⟨rfl, ih _⟩

namespace Action

variable {α β : Type}

/-! ## One action after another -/

theorem printed_bind_of_gives {x : Action α} {tree mid : FileTree} {a : α}
    (h : x.Gives tree a mid) (f : α → Action β) :
    ((x >>= f) tree).printed = (x tree).printed ++ (f a mid).printed := by
  obtain ⟨houtcome, rfl⟩ := h
  show (bind x f tree).printed = _
  simp only [bind, houtcome]

theorem printed_bind_of_fails {x : Action α} {tree : FileTree} {e : Failure}
    (h : x.Fails tree e) (f : α → Action β) : ((x >>= f) tree).printed = (x tree).printed := by
  show (bind x f tree).printed = _
  have houtcome : (x tree).traced.outcome = .error e := h
  simp only [bind, houtcome]

/-- An action that prints nothing, on any tree. -/
def Silent (x : Action α) : Prop := ∀ tree, (x tree).printed = ""

theorem silent_pure (a : α) : Silent (Pure.pure a : Action α) := fun _ => rfl

theorem silent_log (level : Level) (component : Component) (text : String) :
    Silent (log level component text) := fun _ => rfl

theorem silent_change (context : String) (f : FileTree → Except FileError FileTree) :
    Silent (change context f) := by
  intro tree
  unfold change
  split <;> rfl

theorem Silent.within {x : Action α} (hx : x.Silent) (context : String) :
    (x.within context).Silent := hx

/-- What comes after an action may be skipped if it is silent. -/
theorem printed_bind_of_silent {f : α → Action β} (hf : ∀ a, (f a).Silent) (x : Action α)
    (tree : FileTree) : ((x >>= f) tree).printed = (x tree).printed := by
  cases h : (x tree).traced.outcome with
  | error e => exact printed_bind_of_fails h f
  | ok a => rw [printed_bind_of_gives (gives_of_outcome h), hf a _, String.append_empty]

theorem Silent.bind {x : Action α} (hx : x.Silent) {f : α → Action β} (hf : ∀ a, (f a).Silent) :
    (x >>= f).Silent :=
  fun tree => (printed_bind_of_silent hf x tree).trans (hx tree)

/-! ## Lines on a console -/

/-- An action that writes lines, after what was written before, and does nothing else.  If the
console takes them all then it gives all that is written then; and if not, it fails, and has printed
no more than a part of them.  The tree stays as it is. -/
structure Writes (x : Action String) (console : Console) (before : String) (lines : List String) :
    Prop where
  taken : console.Takes before lines → ∀ tree,
    x.Gives tree (before ++ textOf lines) tree ∧ (x tree).printed = textOf lines
  refused : ¬console.Takes before lines → ∀ tree,
    (∃ e, x.Fails tree e) ∧ (x tree).tree = tree ∧
      (x tree).printed.toList <+: (textOf lines).toList

section Writes

variable {x : Action String} {console : Console} {before : String} {lines rest : List String}

theorem writes_pure (console : Console) (before : String) :
    Writes (Pure.pure before) console before [] := by
  constructor
  · intro _ tree
    exact ⟨⟨congrArg Except.ok String.append_empty.symm, rfl⟩, rfl⟩
  · intro h
    exact absurd trivial h

theorem writes_write (console : Console) (context before line : String) :
    Writes (write console context before (line ++ "\n")) console before [line] := by
  have htakes : console.Takes before [line] ↔ console.refusal? before (line ++ "\n") = none :=
    iff_of_eq (and_true _)
  constructor
  · intro h tree
    have hwrite : write console context before (line ++ "\n") tree =
        ⟨tree, line ++ "\n", .pure (before ++ (line ++ "\n"))⟩ := by
      unfold write
      rw [htakes.1 h]
    rw [textOf_singleton]
    exact ⟨⟨by rw [hwrite]; rfl, by rw [hwrite]⟩, by rw [hwrite]⟩
  · intro h tree
    obtain ⟨refusal, hrefusal⟩ := Option.ne_none_iff_exists'.1 fun hnone => h (htakes.2 hnone)
    unfold write Fails
    rw [hrefusal, textOf_singleton, String.toList_ofList]
    exact ⟨⟨_, rfl⟩, rfl, List.take_prefix _ _⟩

/-- What is written in two steps are the lines of both. -/
theorem Writes.bind (hx : x.Writes console before lines) {f : String → Action String}
    (hf : (f (before ++ textOf lines)).Writes console (before ++ textOf lines) rest) :
    (x >>= f).Writes console before (lines ++ rest) := by
  constructor
  · intro htakes tree
    obtain ⟨hlines, hrest⟩ := Console.takes_append_iff.1 htakes
    obtain ⟨hgives, hprinted⟩ := hx.taken hlines tree
    obtain ⟨hgives', hprinted'⟩ := hf.taken hrest tree
    rw [hgives.gives_bind_iff, printed_bind_of_gives hgives, hprinted, hprinted', textOf_append,
      ← String.append_assoc]
    exact ⟨hgives', rfl⟩
  · intro hrefuses tree
    rw [textOf_append, String.toList_append]
    by_cases hlines : console.Takes before lines
    · obtain ⟨hgives, hprinted⟩ := hx.taken hlines tree
      obtain ⟨⟨e, hfails⟩, hleft, hprefix⟩ :=
        hf.refused (fun hrest => hrefuses (Console.takes_append_iff.2 ⟨hlines, hrest⟩)) tree
      rw [printed_bind_of_gives hgives, hprinted, String.toList_append]
      exact ⟨⟨e, hgives.fails_bind_iff.2 hfails⟩, (hgives.tree_bind f).trans hleft,
        (List.prefix_append_right_inj _).2 hprefix⟩
    · obtain ⟨⟨e, hfails⟩, hleft, hprefix⟩ := hx.refused hlines tree
      rw [printed_bind_of_fails hfails]
      exact ⟨⟨e, fails_bind_iff.2 (.inl hfails)⟩, (bind_of_error hfails f).2.trans hleft,
        hprefix.trans (List.prefix_append _ _)⟩

theorem writes_writeLines (console : Console) (context before : String) (lines : List String) :
    (writeLines console context before lines).Writes console before lines := by
  induction lines generalizing before with
  | nil => exact writes_pure console before
  | cons line lines ih => exact (writes_write console context before line).bind (ih _)

/-- It does not matter whether a message in front is written at all. -/
theorem Writes.ite_log_bind (hx : x.Writes console before lines) {c : Prop} [Decidable c]
    (level : Level) (component : Component) (text : String) :
    Writes (if c then log level component text >>= fun _ => x else x) console before lines := by
  split
  · have hlog := quiet_log level component text
    have hprinted : ∀ tree, ((log level component text >>= fun _ => x) tree).printed =
        (x tree).printed := by
      intro tree
      rw [printed_bind_of_gives (hlog tree), silent_log level component text tree,
        String.empty_append]
    constructor
    · intro htakes tree
      rw [hlog.gives_bind_iff, hprinted]
      exact hx.taken htakes tree
    · intro hrefuses tree
      simp only [hlog.fails_bind_iff, hprinted]
      rw [(hlog tree).tree_bind fun _ => x]
      exact hx.refused hrefuses tree
  · exact hx

/-- What comes after the lines comes if the console took them all. -/
theorem Writes.gives_bind_iff (hx : x.Writes console before lines) {f : String → Action β}
    {tree tree' : FileTree} {b : β} :
    (x >>= f).Gives tree b tree' ↔
      console.Takes before lines ∧ (f (before ++ textOf lines)).Gives tree b tree' := by
  by_cases htakes : console.Takes before lines
  · rw [(hx.taken htakes tree).1.gives_bind_iff, and_iff_right htakes]
  · obtain ⟨e, hfails⟩ := (hx.refused htakes tree).1
    refine iff_of_false (fun hgives => ?_) fun h => htakes h.1
    exact hgives.not_fails (fails_bind_iff.2 (.inl hfails))

/-- Whatever becomes of the lines, nothing else is printed. -/
theorem Writes.printed_prefix_textOf (hx : x.Writes console before lines) (tree : FileTree) :
    (x tree).printed.toList <+: (textOf lines).toList := by
  by_cases htakes : console.Takes before lines
  · exact (congrArg String.toList (hx.taken htakes tree).2) ▸ List.prefix_refl _
  · exact (hx.refused htakes tree).2.2

theorem gives_flush_iff {context written : String} {tree tree' : FileTree} :
    (flush console context written).Gives tree () tree' ↔
      console.flushError? written = none ∧ tree' = tree := by
  unfold flush
  cases h : console.flushError? written with
  | none => exact gives_pure_iff.trans (and_congr_left fun _ => iff_of_true rfl rfl)
  | some e => exact iff_of_false (fun hgives => nomatch hgives.outcome) nofun

theorem silent_flush (console : Console) (context written : String) :
    Silent (flush console context written) := by
  intro tree
  unfold flush
  cases console.flushError? written <;> rfl

end Writes

end Action

end ParseAudit
