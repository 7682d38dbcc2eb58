import ParseAudit.Action
/-!
# Results of actions

Started from a tree, an action gives a value and leaves a tree, or it fails.

* `bind_eq_ok_iff`, `mapError_eq_ok_iff`, `mem_mapM_iff`, `exists_mapM_iff`: outcomes that are
  values;
* `gives_bind_iff`, `fails_bind_iff`: what comes of one action after another;
* `Gives.gives_bind_iff`, `Gives.fails_bind_iff`: the same if the first action gives a known value;
* `Quiet`: actions that always succeed and leave the tree alone may be skipped.
-/

namespace ParseAudit.Action

variable {α β : Type}

/-! ## Outcomes -/

/-- One outcome after another is a value when both are. -/
theorem bind_eq_ok_iff {x : Except Failure α} {f : α → Except Failure β} {b : β} :
    x >>= f = .ok b ↔ ∃ a, x = .ok a ∧ f a = .ok b := by
  constructor
  · intro h
    cases x with
    | error e => cases h
    | ok a => exact ⟨a, rfl, h⟩
  · rintro ⟨a, rfl, h⟩
    exact h

/-- A context is added to failures only. -/
theorem mapError_eq_ok_iff {context : Failure → Failure} {x : Except Failure α} {a : α} :
    x.mapError context = .ok a ↔ x = .ok a := by
  cases x with
  | error e => exact ⟨nofun, nofun⟩
  | ok b => exact Iff.rfl

/-- What a list is turned into are the values of its elements. -/
theorem mem_mapM_iff {f : α → Except Failure β} {l : List α} {bs : List β}
    (h : l.mapM f = .ok bs) {b : β} : b ∈ bs ↔ ∃ a ∈ l, f a = .ok b := by
  induction l generalizing bs with
  | nil =>
    cases h
    simp
  | cons a l ih =>
    rw [List.mapM_cons, bind_eq_ok_iff] at h
    obtain ⟨first, hfirst, h⟩ := h
    obtain ⟨rest, hrest, h⟩ := bind_eq_ok_iff.1 h
    cases h
    simp only [List.mem_cons, exists_eq_or_imp, ih hrest, hfirst, Except.ok.injEq]
    rw [eq_comm]

/-- A list is turned into values if each of its elements has one. -/
theorem exists_mapM_iff {f : α → Except Failure β} {l : List α} :
    (∃ bs, l.mapM f = .ok bs) ↔ ∀ a ∈ l, ∃ b, f a = .ok b := by
  induction l with
  | nil => exact iff_of_true ⟨[], rfl⟩ nofun
  | cons a l ih =>
    rw [List.forall_mem_cons, ← ih]
    constructor
    · rintro ⟨bs, h⟩
      rw [List.mapM_cons, bind_eq_ok_iff] at h
      obtain ⟨first, hfirst, h⟩ := h
      obtain ⟨rest, hrest, -⟩ := bind_eq_ok_iff.1 h
      exact ⟨⟨first, hfirst⟩, rest, hrest⟩
    · rintro ⟨⟨first, hfirst⟩, rest, hrest⟩
      refine ⟨first :: rest, ?_⟩
      rw [List.mapM_cons, hfirst, hrest]
      rfl

/-- Started from one tree, an action gives a value and leaves another tree. -/
structure Gives (x : Action α) (tree : FileTree) (a : α) (tree' : FileTree) : Prop where
  outcome : (x tree).traced.outcome = .ok a
  left : (x tree).tree = tree'

/-- Started from a tree, an action fails. -/
def Fails (x : Action α) (tree : FileTree) (e : Failure) : Prop :=
  (x tree).traced.outcome = .error e

theorem gives_of_outcome {x : Action α} {tree : FileTree} {a : α}
    (h : (x tree).traced.outcome = .ok a) : x.Gives tree a (x tree).tree := ⟨h, rfl⟩

/-- An action gives one value only. -/
theorem Gives.unique {x : Action α} {tree tree' tree'' : FileTree} {a a' : α}
    (h : x.Gives tree a tree') (h' : x.Gives tree a' tree'') : a = a' ∧ tree' = tree'' := by
  refine ⟨?_, h.left.symm.trans h'.left⟩
  have heq := h.outcome.symm.trans h'.outcome
  cases heq
  rfl

theorem Gives.not_fails {x : Action α} {tree tree' : FileTree} {a : α} {e : Failure}
    (h : x.Gives tree a tree') : ¬x.Fails tree e := by
  intro hfail
  have heq := h.outcome.symm.trans hfail
  cases heq

/-! ## One action after another -/

theorem bind_of_ok {x : Action α} {tree : FileTree} {a : α}
    (h : (x tree).traced.outcome = .ok a) (f : α → Action β) :
    ((x >>= f) tree).traced.outcome = (f a (x tree).tree).traced.outcome ∧
      ((x >>= f) tree).tree = (f a (x tree).tree).tree := by
  show (bind x f tree).traced.outcome = _ ∧ (bind x f tree).tree = _
  simp only [bind, h, and_self]

theorem bind_of_error {x : Action α} {tree : FileTree} {e : Failure}
    (h : (x tree).traced.outcome = .error e) (f : α → Action β) :
    ((x >>= f) tree).traced.outcome = .error e ∧ ((x >>= f) tree).tree = (x tree).tree := by
  show (bind x f tree).traced.outcome = _ ∧ (bind x f tree).tree = _
  simp only [bind, h, and_self]

/-- The second action starts from the tree that the first one leaves. -/
theorem gives_bind_iff {x : Action α} {f : α → Action β} {tree tree' : FileTree} {b : β} :
    (x >>= f).Gives tree b tree' ↔
      ∃ a mid, x.Gives tree a mid ∧ (f a).Gives mid b tree' := by
  constructor
  · rintro ⟨houtcome, hleft⟩
    cases h : (x tree).traced.outcome with
    | error e =>
      rw [(bind_of_error h f).1] at houtcome
      cases houtcome
    | ok a =>
      rw [(bind_of_ok h f).1] at houtcome
      rw [(bind_of_ok h f).2] at hleft
      exact ⟨a, _, gives_of_outcome h, houtcome, hleft⟩
  · rintro ⟨a, mid, ⟨hx, rfl⟩, ⟨hf, rfl⟩⟩
    exact ⟨(bind_of_ok hx f).1.trans hf, (bind_of_ok hx f).2⟩

/-- One of two actions is to blame for a failure of both. -/
theorem fails_bind_iff {x : Action α} {f : α → Action β} {tree : FileTree} {e : Failure} :
    (x >>= f).Fails tree e ↔
      x.Fails tree e ∨ ∃ a mid, x.Gives tree a mid ∧ (f a).Fails mid e := by
  constructor
  · intro hfails
    cases h : (x tree).traced.outcome with
    | error e' =>
      have heq := (bind_of_error h f).1.symm.trans hfails
      cases heq
      exact .inl h
    | ok a => exact .inr ⟨a, _, gives_of_outcome h, (bind_of_ok h f).1.symm.trans hfails⟩
  · rintro (hx | ⟨a, mid, ⟨hx, rfl⟩, hf⟩)
    · exact (bind_of_error hx f).1
    · exact (bind_of_ok hx f).1.trans hf

/-- After an action that gives a value it is up to the second one. -/
theorem Gives.gives_bind_iff {x : Action α} {f : α → Action β} {tree mid tree' : FileTree} {a : α}
    {b : β} (h : x.Gives tree a mid) : (x >>= f).Gives tree b tree' ↔ (f a).Gives mid b tree' := by
  rw [Action.gives_bind_iff]
  constructor
  · rintro ⟨a', mid', hx, hf⟩
    obtain ⟨rfl, rfl⟩ := hx.unique h
    exact hf
  · exact fun hf => ⟨a, mid, h, hf⟩

theorem Gives.fails_bind_iff {x : Action α} {f : α → Action β} {tree mid : FileTree} {a : α}
    {e : Failure} (h : x.Gives tree a mid) : (x >>= f).Fails tree e ↔ (f a).Fails mid e := by
  rw [Action.fails_bind_iff]
  constructor
  · rintro (hfail | ⟨a', mid', hx, hf⟩)
    · exact absurd hfail h.not_fails
    · obtain ⟨rfl, rfl⟩ := hx.unique h
      exact hf
  · exact fun hf => .inr ⟨a, mid, h, hf⟩

theorem Gives.tree_bind {x : Action α} {tree mid : FileTree} {a : α} (h : x.Gives tree a mid)
    (f : α → Action β) : ((x >>= f) tree).tree = (f a mid).tree := by
  obtain ⟨houtcome, rfl⟩ := h
  exact (bind_of_ok houtcome f).2

/-- A failure of the second action is one of both, and leaves what the second one leaves. -/
theorem Gives.fails_bind {x : Action α} {f : α → Action β} {tree mid left : FileTree} {a : α}
    {e : Failure} (h : x.Gives tree a mid) (hf : (f a).Fails mid e ∧ (f a mid).tree = left) :
    (x >>= f).Fails tree e ∧ ((x >>= f) tree).tree = left :=
  ⟨h.fails_bind_iff.2 hf.1, (h.tree_bind f).trans hf.2⟩

/-! ## Simple actions -/

theorem gives_pure_iff {a b : α} {tree tree' : FileTree} :
    (Pure.pure a : Action α).Gives tree b tree' ↔ b = a ∧ tree' = tree := by
  constructor
  · rintro ⟨houtcome, rfl⟩
    cases houtcome
    exact ⟨rfl, rfl⟩
  · rintro ⟨rfl, rfl⟩
    exact ⟨rfl, rfl⟩

theorem not_fails_pure {a : α} {tree : FileTree} {e : Failure} :
    ¬(Pure.pure a : Action α).Fails tree e := by
  intro h
  cases h

theorem gives_ofExcept_iff {x : Except Failure α} {a : α} {tree tree' : FileTree} :
    (ofExcept x).Gives tree a tree' ↔ x = .ok a ∧ tree' = tree :=
  ⟨fun h => ⟨h.outcome, h.left.symm⟩, fun h => ⟨h.1, h.2.symm⟩⟩

theorem fails_ofExcept_iff {x : Except Failure α} {tree : FileTree} {e : Failure} :
    (ofExcept x).Fails tree e ↔ x = .error e := Iff.rfl

theorem gives_look_iff {f : FileTree → Traced α} {a : α} {tree tree' : FileTree} :
    (look f).Gives tree a tree' ↔ (f tree).outcome = .ok a ∧ tree' = tree :=
  ⟨fun h => ⟨h.outcome, h.left.symm⟩, fun h => ⟨h.1, h.2.symm⟩⟩

/-- The tree is changed, or the action fails. -/
theorem gives_change_iff {context : String} {f : FileTree → Except FileError FileTree}
    {tree tree' : FileTree} : (change context f).Gives tree () tree' ↔ f tree = .ok tree' := by
  constructor
  · rintro ⟨houtcome, rfl⟩
    unfold change at houtcome ⊢
    cases h : f tree with
    | ok t => rfl
    | error e =>
      rw [h] at houtcome
      cases houtcome
  · intro h
    constructor
    · unfold change
      rw [h]
      rfl
    · unfold change
      rw [h]

/-- A context is added to failures only. -/
theorem gives_within_iff {context : String} {x : Action α} {a : α} {tree tree' : FileTree} :
    (x.within context).Gives tree a tree' ↔ x.Gives tree a tree' := by
  constructor
  · exact fun h => ⟨mapError_eq_ok_iff.1 h.outcome, h.left⟩
  · exact fun h => ⟨mapError_eq_ok_iff.2 h.outcome, h.left⟩

/-- A value is attempted with success. -/
theorem Gives.attempt {x : Action α} {a : α} {tree tree' : FileTree} (h : x.Gives tree a tree') :
    x.attempt.Gives tree (.ok a) tree' := by
  constructor
  · exact congrArg Except.ok h.outcome
  · exact h.left

/-- A failure that is a value leaves what the action did before it. -/
theorem Fails.attempt {x : Action α} {tree : FileTree} {e : Failure} (h : x.Fails tree e) :
    x.attempt.Gives tree (.error e) (x tree).tree := by
  constructor
  · exact congrArg Except.ok h
  · rfl

/-! ## Quiet actions -/

/-- An action that succeeds on every tree and leaves it alone. -/
def Quiet (x : Action Unit) : Prop := ∀ tree, x.Gives tree () tree

theorem quiet_pure : Quiet (Pure.pure ()) := fun _ => ⟨rfl, rfl⟩

theorem quiet_log (level : Level) (component : Component) (text : String) :
    Quiet (log level component text) := fun _ => ⟨rfl, rfl⟩

theorem quiet_remarkLine (text : String) : Quiet (remarkLine text) := fun _ => ⟨rfl, rfl⟩

theorem quiet_noteCall (invocation : Invocation) : Quiet (ofTraced (.noteCall invocation)) :=
  fun _ => ⟨rfl, rfl⟩

/-- A quiet action in front may be skipped. -/
theorem Quiet.gives_bind_iff {x : Action Unit} (hx : x.Quiet) {f : Unit → Action β}
    {tree tree' : FileTree} {b : β} :
    (x >>= f).Gives tree b tree' ↔ (f ()).Gives tree b tree' :=
  (hx tree).gives_bind_iff

theorem Quiet.fails_bind_iff {x : Action Unit} (hx : x.Quiet) {f : Unit → Action β}
    {tree : FileTree} {e : Failure} : (x >>= f).Fails tree e ↔ (f ()).Fails tree e :=
  (hx tree).fails_bind_iff

/-- It does not matter whether a quiet action in front is done at all. -/
theorem Quiet.gives_ite_iff {x : Action Unit} (hx : x.Quiet) {c : Prop} [Decidable c]
    {f : Unit → Action β} {tree tree' : FileTree} {b : β} :
    (if c then x >>= f else f ()).Gives tree b tree' ↔ (f ()).Gives tree b tree' := by
  split
  · exact hx.gives_bind_iff
  · exact Iff.rfl

theorem Quiet.fails_ite_iff {x : Action Unit} (hx : x.Quiet) {c : Prop} [Decidable c]
    {f : Unit → Action β} {tree : FileTree} {e : Failure} :
    (if c then x >>= f else f ()).Fails tree e ↔ (f ()).Fails tree e := by
  split
  · exact hx.fails_bind_iff
  · exact Iff.rfl

theorem Quiet.bind {x : Action Unit} (hx : x.Quiet) {f : Unit → Action Unit}
    (hf : (f ()).Quiet) : (x >>= f).Quiet :=
  fun tree => hx.gives_bind_iff.2 (hf tree)

end ParseAudit.Action
