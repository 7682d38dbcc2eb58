import ParseAudit.Report.Codec
import ParseAudit.Proofs.Json.RoundTrip
/-!
# Fields are read back

A record is written as an object from which absent fields are left out, and read by the names of its
fields.  A value is `Kept` by a way of writing and a way of reading if it is read from what it was
written as, after the members were put in order.

* `kept_text`, `kept_uint32`, `kept_uint64`, `kept_list`: values that are no records;
* `Kept.required`, `Kept.optional`, `nullable_of_kept`, `optional_orNull_of_kept`: single fields of
  a record;
* `Kept.ofMembers`: a record whose fields are all kept.
-/

namespace ParseAudit

/-- The members of which some are absent that are present. -/
def present (ms : List (String × Option Json)) : Json.Members :=
  ms.filterMap fun (key, value) => value.map (key, ·)

theorem keys_present_sublist (ms : List (String × Option Json)) :
    ((present ms).map Prod.fst).Sublist (ms.map Prod.fst) := by
  induction ms with
  | nil => exact .slnil
  | cons m ms ih =>
    obtain ⟨k, o⟩ := m
    cases o with
    | none => exact ih.cons k
    | some v => exact ih.cons_cons k

/-- A member that is present is found under its key, and one that is absent is not. -/
theorem lookup_present {ms : List (String × Option Json)} (hkeys : (ms.map Prod.fst).Nodup)
    {m : String × Option Json} (hm : m ∈ ms) : (present ms).lookup m.1 = m.2 := by
  induction ms with
  | nil => cases hm
  | cons l ms ih =>
    obtain ⟨k, o⟩ := l
    rw [List.map_cons, List.nodup_cons] at hkeys
    rcases List.mem_cons.1 hm with rfl | hlater
    · cases o with
      | none =>
        show (present ms).lookup k = none
        rw [List.lookup_eq_none_iff]
        intro p hp
        have hne : k ≠ p.1 := by
          rintro rfl
          exact hkeys.1 ((keys_present_sublist ms).subset (List.mem_map.2 ⟨p, hp, rfl⟩))
        simpa using hne
      | some v =>
        show List.lookup k ((k, v) :: present ms) = some v
        simp
    · have hne : m.1 ≠ k := by
        rintro rfl
        exact hkeys.1 (List.mem_map.2 ⟨m, hlater, rfl⟩)
      rw [← ih hkeys.2 hlater]
      cases o with
      | none => rfl
      | some v =>
        show List.lookup m.1 ((k, v) :: present ms) = _
        rw [List.lookup_cons, beq_false_of_ne hne]

namespace Json

variable {α : Type} {n : Nat}

/-- A value is written without floating-point numbers and not too deep, as something other than
`null`, and it is read from that. -/
structure Kept (n : Nat) (read? : Json → Option α) (write : α → Json) (a : α) : Prop where
  plain : Plain n (write a)
  ne_null : (write a).sorted ≠ .null
  read : read? (write a).sorted = some a

/-! ## Values that are no records -/

theorem kept_text (s : String) : Kept n text? .str s := ⟨.str s, nofun, rfl⟩

theorem kept_uint32 (k : UInt32) : Kept n uint32? ofUInt32 k where
  plain := .num nofun
  ne_null := nofun
  read := by
    show (if k.toNat < UInt32.size then some (UInt32.ofNat k.toNat) else none) = some k
    rw [if_pos k.toNat_lt_size, UInt32.ofNat_toNat]

theorem kept_uint64 (k : UInt64) : Kept n uint64? (fun k => .num (.ofUInt64 k)) k where
  plain := .num nofun
  ne_null := nofun
  read := congrArg some UInt64.ofNat_toNat

theorem mapM_eq_some_of_forall {read? : Json → Option α} {write : α → Json} {l : List α}
    (h : ∀ a ∈ l, read? (write a) = some a) : (l.map write).mapM read? = some l := by
  induction l with
  | nil => rfl
  | cons a l ih =>
    rw [List.map_cons, List.mapM_cons, h a List.mem_cons_self,
      ih fun b hb => h b (List.mem_cons_of_mem a hb)]
    rfl

theorem kept_list {read? : Json → Option α} {write : α → Json} {l : List α}
    (h : ∀ a ∈ l, Kept n read? write a) :
    Kept (n + 1) (list? read?) (fun l => .arr (l.map write)) l where
  plain := by
    refine .arr fun v hv => ?_
    obtain ⟨a, ha, rfl⟩ := List.mem_map.1 hv
    exact (h a ha).plain
  ne_null := nofun
  read := by
    show (sortedItems (l.map write)).mapM read? = some l
    rw [sortedItems_eq_map, List.map_map]
    exact mapM_eq_some_of_forall fun a ha => (h a ha).read

/-! ## Single fields -/

section Fields

variable {read? : Json → Option α} {write : α → Json} {members : Members} {index : Nat}
  {name : String}

theorem Kept.required {a : α} (h : Kept n read? write a)
    (hget : members.get? name = (some (write a)).map sorted) :
    Fields.required (.named members) index name read? = some a := by
  have hvalue : (Fields.named members).value? index name = some (write a).sorted := hget
  rw [Fields.required, hvalue]
  exact h.read

theorem Kept.optional {a absent : α} (h : Kept n read? write a)
    (hget : members.get? name = (some (write a)).map sorted) :
    Fields.optional (.named members) index name absent read? = some a := by
  have hvalue : (Fields.named members).value? index name = some (write a).sorted := hget
  rw [Fields.optional, hvalue]
  exact h.read

theorem Kept.orNull {a : α} (h : Kept n read? write a) :
    Fields.orNull read? (write a).sorted = some (some a) := by
  have hnull := h.ne_null
  have hread := h.read
  unfold Fields.orNull
  split
  · next heq => exact absurd heq hnull
  · rw [hread]
    rfl

theorem nullable_of_kept {o : Option α} (h : ∀ a ∈ o, Kept n read? write a)
    (hget : members.get? name = (o.map write).map sorted) :
    Fields.nullable (.named members) index name read? = some o := by
  have hvalue : (Fields.named members).value? index name = (o.map write).map sorted := hget
  unfold Fields.nullable
  rw [hvalue]
  cases o with
  | none => rfl
  | some a => exact (h a rfl).orNull

theorem optional_orNull_of_kept {o : Option α} (h : ∀ a ∈ o, Kept n read? write a)
    (hget : members.get? name = (o.map write).map sorted) :
    Fields.optional (.named members) index name none (Fields.orNull read?) = some o := by
  have hvalue : (Fields.named members).value? index name = (o.map write).map sorted := hget
  rw [Fields.optional, hvalue]
  cases o with
  | none => rfl
  | some a => exact (h a rfl).orNull

theorem plain_of_kept {o : Option α} (h : ∀ a ∈ o, Kept n read? write a) :
    ∀ v ∈ o.map write, Plain n v := by
  intro v hv
  obtain ⟨a, ha, rfl⟩ := Option.map_eq_some_iff.1 hv
  exact (h a ha).plain

theorem Kept.plain_some {a : α} (h : Kept n read? write a) : ∀ v ∈ some (write a), Plain n v := by
  rintro v ⟨⟩
  exact h.plain

/-! ## Records -/

/-- A record is kept if its fields are not too deep and it is read from any object that has them. -/
theorem Kept.ofMembers {a : α} (ms : List (String × Option Json))
    (hwrite : write a = presentMembers ms) (hkeys : (ms.map Prod.fst).Nodup)
    (hplain : ∀ m ∈ ms, ∀ v ∈ m.2, Plain n v)
    (hread : ∀ members : Members, (∀ m ∈ ms, members.get? m.1 = m.2.map sorted) →
      read? (.obj members) = some a) : Kept (n + 1) read? write a where
  plain := by
    rw [hwrite]
    refine .obj fun p hp => ?_
    obtain ⟨m, hm, hsome⟩ := List.mem_filterMap.1 hp
    obtain ⟨v, hv, rfl⟩ := Option.map_eq_some_iff.1 hsome
    exact hplain m hm v hv
  ne_null := by
    rw [hwrite]
    nofun
  read := by
    rw [hwrite]
    refine hread _ fun m hm => ?_
    -- The keys that are present are distinct, so that putting them in order loses no member.
    have hpresent := hkeys.sublist (keys_present_sublist ms)
    show Members.get? (sortedMembers [] (present ms)) m.1 = m.2.map sorted
    rw [get?_sortedMembers hpresent, lookup_present hkeys hm]
    exact Option.or_none

end Fields

end Json

end ParseAudit
