import ParseAudit.Json.Value
/-!
# Positions within a value

A position is given by the steps that lead to it, each by the number of an item or by the number and
the key of a member.  What is seen at a position is a scalar, the length of an array or the keys of
an object, but not what these hold.

* `isSome_child?`: whether a step leads on is seen without taking it;
* `seenAt_mapMembers`: what is seen in an object whose members were changed, key by key;
* `Json.nestedInduction`: induction over items and members.
-/

namespace ParseAudit.Json

/-- One step into a value.  Members are numbered as well, since a list of members may repeat a
key. -/
inductive Step where
  /-- To the item of an array with this number. -/
  | item (number : Nat)
  /-- To the member of an object with this number and this key. -/
  | member (number : Nat) (key : String)
  deriving DecidableEq, Repr

/-- The key of a step to a member. -/
def Step.key? : Step → Option String
  | .item _ => none
  | .member _ key => some key

/-- A place within a value. -/
abbrev Position := List Step

/-- The item or member that a step leads to. -/
def child? : Json → Step → Option Json
  | .arr items, .item number => items[number]?
  | .obj members, .member number key => (members[number]?.filter (·.1 = key)).map Prod.snd
  | _, _ => none

/-- What stands at a position. -/
def at? (value : Json) : Position → Option Json
  | [] => some value
  | step :: rest => (value.child? step).bind fun inner => inner.at? rest

/-- What is seen of a value without looking into it. -/
inductive Outline where
  | scalar (value : Json)
  | array (length : Nat)
  | object (keys : List String)
  deriving DecidableEq, Repr

/-- A scalar itself, the length of an array, or the keys of an object. -/
def outline : Json → Outline
  | .arr items => .array items.length
  | .obj members => .object (members.map Prod.fst)
  | value => .scalar value

/-- What is seen at a position, if it is a position of the value. -/
def seenAt (value : Json) (p : Position) : Option Outline := (value.at? p).map outline

@[simp] theorem seenAt_nil (value : Json) : value.seenAt [] = some value.outline := rfl

theorem seenAt_cons (value : Json) (step : Step) (rest : Position) :
    value.seenAt (step :: rest) = (value.child? step).bind fun inner => inner.seenAt rest := by
  unfold seenAt
  rw [at?, Option.map_bind]
  rfl

theorem seenAt_item {items : List Json} {i : Nat} (hi : i < items.length) (rest : Position) :
    (arr items).seenAt (.item i :: rest) = items[i].seenAt rest := by
  rw [seenAt_cons, child?, List.getElem?_eq_getElem hi, Option.bind_some]

theorem seenAt_member {members : Members} {i : Nat} {key : String} (hi : i < members.length)
    (hkey : members[i].1 = key) (rest : Position) :
    (obj members).seenAt (.member i key :: rest) = members[i].2.seenAt rest := by
  rw [seenAt_cons, child?, List.getElem?_eq_getElem hi, Option.filter_some,
    if_pos (decide_eq_true hkey), Option.map_some, Option.bind_some]

/-! ## Outlines -/

theorem eq_of_outline_scalar {v w : Json} (h : w.outline = .scalar v) : w = v := by
  cases w <;> cases h <;> rfl

theorem exists_items_of_outline {n : Nat} {v : Json} (h : v.outline = .array n) :
    ∃ items, v = .arr items ∧ items.length = n := by
  cases v <;> cases h
  exact ⟨_, rfl, rfl⟩

theorem exists_members_of_outline {keys : List String} {v : Json} (h : v.outline = .object keys) :
    ∃ members, v = .obj members ∧ members.map Prod.fst = keys := by
  cases v <;> cases h
  exact ⟨_, rfl, rfl⟩

/-- Whether a step leads on from a value with this outline. -/
def Outline.opens : Outline → Step → Bool
  | .array length, .item number => number < length
  | .object keys, .member number key => keys[number]? = some key
  | _, _ => false

theorem isSome_child? (v : Json) (step : Step) :
    (v.child? step).isSome = v.outline.opens step := by
  cases v with
  | null | bool | num | str => cases step <;> rfl
  | arr items =>
    cases step with
    | item number =>
      show items[number]?.isSome = decide (number < items.length)
      rw [Bool.eq_iff_iff, Option.isSome_iff_ne_none, Ne, List.getElem?_eq_none_iff, Nat.not_le,
        decide_eq_true_iff]
    | member => rfl
  | obj members =>
    cases step with
    | item => rfl
    | member number key =>
      cases h : members[number]? with
      | none => simp [child?, outline, Outline.opens, h]
      | some m => by_cases hkey : m.1 = key <;> simp [child?, outline, Outline.opens, h, hkey]

/-- An object has a member exactly if its key is seen. -/
theorem isSome_get?_iff {v : Json} {key : String} :
    (v.get? key).isSome = true ↔ ∃ keys, v.outline = .object keys ∧ key ∈ keys := by
  cases v with
  | null | bool | num | str | arr => simp [get?, outline]
  | obj members =>
    simp [get?, Members.get?, outline]

/-! ## Changed members -/

/-- A step into an object whose members were changed, key by key. -/
theorem child?_mapMembers (f : String → Json → Json) (members : Members) (number : Nat)
    (key : String) :
    (Json.obj (members.map fun m => (m.1, f m.1 m.2))).child? (.member number key) =
      ((Json.obj members).child? (.member number key)).map (f key) := by
  rw [child?, child?, List.getElem?_map]
  cases members[number]? with
  | none => rfl
  | some m => by_cases h : m.1 = key <;> simp [Option.filter_some, h]

/-- What is seen in an object stays as it is where the changes are not seen. -/
theorem seenAt_mapMembers {f : String → Json → Json} {members : Members} {p : Position}
    (h : ∀ number key rest, p = .member number key :: rest →
      ∀ inner : Json, (f key inner).seenAt rest = inner.seenAt rest) :
    (Json.obj (members.map fun m => (m.1, f m.1 m.2))).seenAt p = (Json.obj members).seenAt p := by
  cases p with
  | nil => simp [outline]
  | cons step rest =>
    rw [seenAt_cons, seenAt_cons]
    cases step with
    | item => rfl
    | member number key =>
      rw [child?_mapMembers, Option.bind_map]
      congr 1
      funext inner
      exact h number key rest rfl inner

/-! ## Induction -/

/-- What holds of scalars, of arrays by their items and of objects by their members holds of all
values. -/
@[elab_as_elim]
theorem nestedInduction {motive : Json → Prop} (scalar : ∀ v, v.outline = .scalar v → motive v)
    (arr : ∀ items, (∀ v ∈ items, motive v) → motive (.arr items))
    (obj : ∀ members : Members, (∀ m ∈ members, motive m.2) → motive (.obj members)) (v : Json) :
    motive v :=
  @Json.rec motive (fun items => ∀ v ∈ items, motive v) (fun ms => ∀ m ∈ ms, motive m.2)
    (fun m => motive m.2) (scalar .null rfl) (fun b => scalar (.bool b) rfl)
    (fun n => scalar (.num n) rfl) (fun s => scalar (.str s) rfl) arr obj
    (fun _ h => absurd h List.not_mem_nil)
    (fun _ _ hv hvs => List.forall_mem_cons.2 ⟨hv, hvs⟩)
    (fun _ h => absurd h List.not_mem_nil)
    (fun _ _ hm hms => List.forall_mem_cons.2 ⟨hm, hms⟩) (fun _ _ h => h) v

end ParseAudit.Json
