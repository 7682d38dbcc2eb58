import ParseAudit.Json.Value
/-!
# Members in order

A reader puts the members of an object in the order of their keys.  For keys that are distinct this
changes nothing but the order: each member is found again under its key.

* `get?_insert`, `get?_sortedMembers`: the members of an object that was read;
* `Ordered.sorted_eq_self`: what is in order already is left as it is.
-/

namespace ParseAudit.Json

mutual

/-- A value as it is read: the members of its objects are put in order, one after another. -/
def sorted : Json → Json
  | .arr items => .arr (sortedItems items)
  | .obj members => .obj (sortedMembers [] members)
  | v => v

/-- The items of an array as they are read. -/
def sortedItems : List Json → List Json
  | [] => []
  | x :: xs => x.sorted :: sortedItems xs

/-- The members of an object as they are read after some others. -/
def sortedMembers (known : Members) : List (String × Json) → Members
  | [] => known
  | (k, v) :: ms => sortedMembers (known.insert k v.sorted) ms

end

theorem sortedItems_eq_map (items : List Json) : sortedItems items = items.map sorted := by
  induction items with
  | nil => rfl
  | cons x xs ih => rw [sortedItems, ih, List.map_cons]

/-! ## Members by their keys -/

/-- A member that was put in its place is found, and the others are found as before. -/
theorem get?_insert (members : Members) (k : String) (v : Json) (k' : String) :
    Members.get? (members.insert k v) k' = if k' = k then some v else members.get? k' := by
  unfold Members.get?
  induction members with
  | nil =>
    by_cases h : k' = k
    · simp [Members.insert, h]
    · simp [Members.insert, List.lookup_cons, beq_false_of_ne h, h]
  | cons m ms ih =>
    obtain ⟨l, w⟩ := m
    unfold Members.insert
    by_cases h : k' = k
    · subst h
      split
      · simp
      · split
        · simp
        · next hne => simpa [List.lookup_cons, beq_false_of_ne hne] using ih
    · rw [if_neg h] at ih ⊢
      split
      · rw [List.lookup_cons, beq_false_of_ne h]
      · split
        · next heq =>
          subst heq
          simp [List.lookup_cons, beq_false_of_ne h]
        · rw [List.lookup_cons, List.lookup_cons, ih]

theorem get?_sortedMembers {ms : List (String × Json)} (hnodup : (ms.map Prod.fst).Nodup)
    (known : Members) (k : String) :
    Members.get? (sortedMembers known ms) k =
      ((ms.lookup k).map sorted).or (known.get? k) := by
  induction ms generalizing known with
  | nil => rfl
  | cons m ms ih =>
    obtain ⟨l, w⟩ := m
    rw [List.map_cons, List.nodup_cons] at hnodup
    rw [sortedMembers, ih hnodup.2, get?_insert, List.lookup_cons]
    by_cases h : k = l
    · subst h
      -- The keys are distinct, so no later member takes the place of this one.
      have hnone : ms.lookup k = none := by
        rw [List.lookup_eq_none_iff]
        intro m hm
        have hne : k ≠ m.1 := by
          rintro rfl
          exact hnodup.1 (List.mem_map.2 ⟨m, hm, rfl⟩)
        simpa using hne
      simp [hnone]
    · simp [h, beq_false_of_ne h]

/-! ## Values in order -/

/-- A value whose objects have their members in strictly increasing order of their keys. -/
inductive Ordered : Json → Prop where
  | null : Ordered .null
  | bool (b : Bool) : Ordered (.bool b)
  | num (n : JsonNumber) : Ordered (.num n)
  | str (s : String) : Ordered (.str s)
  | arr {items : List Json} (inner : ∀ v ∈ items, Ordered v) : Ordered (.arr items)
  | obj {members : Members} (keys : members.Pairwise fun m m' => m.1 < m'.1)
    (inner : ∀ m ∈ members, Ordered m.2) : Ordered (.obj members)

/-- A member that comes after all others is put at the end. -/
theorem insert_eq_concat {members : Members} {k : String} (h : ∀ m ∈ members, m.1 < k) (v : Json) :
    members.insert k v = members ++ [(k, v)] := by
  induction members with
  | nil => rfl
  | cons m ms ih =>
    obtain ⟨l, w⟩ := m
    have hl : l < k := h (l, w) List.mem_cons_self
    have hne : k ≠ l := by
      rintro rfl
      exact String.lt_irrefl k hl
    rw [Members.insert, if_neg (String.lt_asymm hl), if_neg hne,
      ih fun m hm => h m (List.mem_cons_of_mem _ hm)]
    rfl

theorem sortedMembers_eq_append {ms : Members} (hkeys : ms.Pairwise fun m m' => m.1 < m'.1)
    (hinner : ∀ m ∈ ms, m.2.sorted = m.2) {known : Members}
    (hknown : ∀ m ∈ known, ∀ m' ∈ ms, m.1 < m'.1) : sortedMembers known ms = known ++ ms := by
  induction ms generalizing known with
  | nil => exact (List.append_nil known).symm
  | cons m ms ih =>
    obtain ⟨k, v⟩ := m
    obtain ⟨hfirst, hrest⟩ := List.pairwise_cons.1 hkeys
    have hv : v.sorted = v := hinner (k, v) List.mem_cons_self
    have hnext : ∀ m ∈ known ++ [(k, v)], ∀ m' ∈ ms, m.1 < m'.1 := by
      intro m hm m' hm'
      rcases List.mem_append.1 hm with hm | hm
      · exact hknown m hm m' (List.mem_cons_of_mem _ hm')
      · rw [List.mem_singleton.1 hm]
        exact hfirst m' hm'
    rw [sortedMembers, hv, insert_eq_concat (fun m hm => hknown m hm (k, v) List.mem_cons_self),
      ih hrest (fun m hm => hinner m (List.mem_cons_of_mem _ hm)) hnext, List.append_assoc]
    rfl

/-- A value in order is read as it is. -/
theorem Ordered.sorted_eq_self {v : Json} (h : Ordered v) : v.sorted = v := by
  induction h with
  | null | bool | num | str => rfl
  | @arr items inner ih =>
    rw [sorted, sortedItems_eq_map, List.map_congr_left ih, List.map_id']
  | obj keys inner ih =>
    rw [sorted, sortedMembers_eq_append keys ih (fun _ h => absurd h List.not_mem_nil)]
    rfl

end ParseAudit.Json
