import ParseAudit.Invocation.Basic
/-!
# Traced computations

A `Traced α` is a computation with its outcome, a value or a failure, and with the events on the
way there: messages of the log, remarks on the error stream and calls of the parser.  What happened
before a failure stays in the trace.  `events_bind` and `outcome_bind` say how two computations are
put one after another.
-/

namespace ParseAudit

/-- How grave a message of the log is. -/
inductive Level where
  | error
  | warn
  | info
  | debug
  deriving DecidableEq, Repr

namespace Level

/-- The name of a level. -/
def name : Level → String
  | error => "ERROR"
  | warn => "WARN"
  | info => "INFO"
  | debug => "DEBUG"

/-- The place of a level, the gravest first. -/
def rank : Level → Nat
  | error => 1
  | warn => 2
  | info => 3
  | debug => 4

end Level

/-- The part of the program that a message comes from. -/
inductive Component where
  | listFile
  | selection
  | runner
  | check
  | resolve
  | publish
  | command
  deriving DecidableEq, Repr

namespace Component

/-- The name of a component in the log. -/
def name : Component → String
  | listFile => "parseguard_repo::list"
  | selection => "parseguard_repo::resolve"
  | runner => "parseguard_app::runner"
  | check => "parseguard_app::check"
  | resolve => "parseguard_app::resolve"
  | publish => "parseguard_app::publish"
  | command => "parseguard"

end Component

/-- Something that happens during a computation. -/
inductive Event where
  | message (level : Level) (component : Component) (text : String)
  /-- A text for the error stream, beside the log. -/
  | remark (text : String)
  | call (invocation : Invocation)
  deriving DecidableEq, Repr

/-- A computation: what happened, and what came out. -/
structure Traced (α : Type) where
  events : List Event
  outcome : Except Failure α

namespace Traced

variable {α β : Type}

/-- The computation that only gives a value. -/
def pure (a : α) : Traced α := ⟨[], .ok a⟩

/-- One computation after another; a failure ends it. -/
def bind (x : Traced α) (f : α → Traced β) : Traced β :=
  match x.outcome with
  | .ok a => ⟨x.events ++ (f a).events, (f a).outcome⟩
  | .error e => ⟨x.events, .error e⟩

instance : Monad Traced where
  pure := pure
  bind := bind

/-- The computation that fails. -/
def fail (f : Failure) : Traced α := ⟨[], .error f⟩

/-- A computation without events. -/
def ofExcept (outcome : Except Failure α) : Traced α := ⟨[], outcome⟩

/-- Writes a message to the log. -/
def log (level : Level) (component : Component) (text : String) : Traced Unit :=
  ⟨[.message level component text], .ok ()⟩

/-- Says something on the error stream. -/
def remark (text : String) : Traced Unit := ⟨[.remark text], .ok ()⟩

/-- Notes a call of the parser. -/
def noteCall (invocation : Invocation) : Traced Unit := ⟨[.call invocation], .ok ()⟩

/-- Names the context of a computation, in case it fails. -/
def within (context : String) (x : Traced α) : Traced α :=
  { x with outcome := x.outcome.mapError (Failure.within context) }

/-- The calls of the parser among the events. -/
def calls (x : Traced α) : List Invocation :=
  x.events.filterMap fun
    | .call invocation => some invocation
    | _ => none

theorem pure_def (a : α) : (Pure.pure a : Traced α) = ⟨[], .ok a⟩ := rfl

theorem bind_def (x : Traced α) (f : α → Traced β) : x >>= f = x.bind f := rfl

/-- The second of two computations starts from the value of the first. -/
theorem outcome_bind (x : Traced α) (f : α → Traced β) :
    (x >>= f).outcome = x.outcome >>= fun a => (f a).outcome := by
  rw [bind_def, bind]
  split <;> next h => rw [h]; rfl

/-- The events of two computations stand one after another. -/
theorem events_bind (x : Traced α) (f : α → Traced β) :
    (x >>= f).events =
      x.events ++ match x.outcome with
        | .ok a => (f a).events
        | .error _ => [] := by
  rw [bind_def, bind]
  split <;> simp [*]

instance : LawfulMonad Traced := LawfulMonad.mk' Traced
  (by intro α x; obtain ⟨events, outcome⟩ := x
      cases outcome <;> simp [Functor.map, bind, pure])
  (by intro α β x f; simp [Bind.bind, Pure.pure, bind, pure])
  (by intro α β γ x f g; obtain ⟨events, outcome⟩ := x
      cases outcome with
      | error e => simp [Bind.bind, bind]
      | ok a =>
        simp only [Bind.bind, bind]
        split <;> simp)

end Traced

end ParseAudit
