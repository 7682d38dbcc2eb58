import ParseAudit.Proofs.Action
/-!
# Calls in a trace

The calls of one computation after another stand one after another, and a computation that is
`Mute` adds none.

* `Traced.Mute`, `Action.Mute`: computations that call no parser, whatever comes of them;
* `Action.calls_bind_of_gives`, `Action.Mute.calls_bind`, `Action.calls_bind_of_mute`: the calls of
  one action after another.
-/

namespace ParseAudit

variable {α β : Type}

namespace Traced

/-! ## Traced computations -/

/-- A computation that calls no parser. -/
def Mute (x : Traced α) : Prop := x.calls = []

theorem mute_ofExcept (outcome : Except Failure α) : Mute (ofExcept outcome) := rfl

theorem Mute.bind {x : Traced α} (hx : x.Mute) {f : α → Traced β} (hf : ∀ a, (f a).Mute) :
    (x >>= f).Mute := by
  unfold Mute calls at hx ⊢
  rw [events_bind, List.filterMap_append, hx, List.nil_append]
  split
  · exact hf _
  · rfl

end Traced

namespace Action

/-! ## Actions -/

theorem calls_bind_of_gives {x : Action α} {tree mid : FileTree} {a : α}
    (h : x.Gives tree a mid) (f : α → Action β) :
    ((x >>= f) tree).traced.calls = (x tree).traced.calls ++ (f a mid).traced.calls := by
  obtain ⟨houtcome, rfl⟩ := h
  show (bind x f tree).traced.calls = _
  simp only [bind, houtcome]
  exact List.filterMap_append

theorem calls_bind_of_fails {x : Action α} {tree : FileTree} {e : Failure}
    (h : x.Fails tree e) (f : α → Action β) :
    ((x >>= f) tree).traced.calls = (x tree).traced.calls := by
  show (bind x f tree).traced.calls = _
  have houtcome : (x tree).traced.outcome = .error e := h
  simp only [bind, houtcome]
  rfl

/-- An action that calls no parser, on any tree. -/
def Mute (x : Action α) : Prop := ∀ tree, (x tree).traced.Mute

theorem mute_pure (a : α) : Mute (Pure.pure a : Action α) := fun _ => rfl

theorem mute_ofExcept (outcome : Except Failure α) : Mute (ofExcept outcome) := fun _ => rfl

theorem mute_log (level : Level) (component : Component) (text : String) :
    Mute (log level component text) := fun _ => rfl

theorem mute_perform (context : String) (f : FileTree → FileTree × Except FileError α) :
    Mute (perform context f) := fun _ => rfl

theorem mute_look {f : FileTree → Traced α} (hf : ∀ t, (f t).Mute) : Mute (look f) := hf

theorem Mute.within {x : Action α} (hx : x.Mute) (context : String) : (x.within context).Mute := hx

theorem Mute.ite {x y : Action α} (hx : x.Mute) (hy : y.Mute) {c : Prop} [Decidable c] :
    Mute (if c then x else y) := by
  split
  · exact hx
  · exact hy

/-- What comes after an action may be skipped if it is mute. -/
theorem calls_bind_of_mute {f : α → Action β} (hf : ∀ a, (f a).Mute) (x : Action α)
    (tree : FileTree) : ((x >>= f) tree).traced.calls = (x tree).traced.calls := by
  cases h : (x tree).traced.outcome with
  | error e => exact calls_bind_of_fails h f
  | ok a =>
    rw [calls_bind_of_gives (gives_of_outcome h), hf a _, List.append_nil]

theorem Mute.bind {x : Action α} (hx : x.Mute) {f : α → Action β} (hf : ∀ a, (f a).Mute) :
    (x >>= f).Mute :=
  fun tree => (calls_bind_of_mute hf x tree).trans (hx tree)

/-- A mute action in front may be skipped. -/
theorem Mute.calls_bind {x : Action α} (hx : x.Mute) {tree mid : FileTree} {a : α}
    (h : x.Gives tree a mid) (f : α → Action β) :
    ((x >>= f) tree).traced.calls = (f a mid).traced.calls := by
  rw [calls_bind_of_gives h, hx tree, List.nil_append]

/-- A message in front may be skipped. -/
theorem calls_log_bind (level : Level) (component : Component) (text : String)
    (f : Unit → Action β) (tree : FileTree) :
    ((log level component text >>= f) tree).traced.calls = (f () tree).traced.calls :=
  (mute_log level component text).calls_bind (quiet_log level component text tree) f

/-- It does not matter whether a message in front is written at all. -/
theorem calls_ite_log_bind {c : Prop} [Decidable c] (level : Level) (component : Component)
    (text : String) (f : Unit → Action β) (tree : FileTree) :
    ((if c then log level component text >>= f else f ()) tree).traced.calls =
      (f () tree).traced.calls := by
  split
  · exact calls_log_bind level component text f tree
  · rfl

end Action

end ParseAudit
