import ParseAudit.Text.Octets
/-!
# Regular expressions over octets

The language that glob patterns are explained in.  `Regular.Matches` says which octets an
expression describes; `Regular.accepts` decides it by marking, part after part of the expression,
the places that can be reached.  `Regular.Reaches` says which places these are: for each kind of
expression there is a lemma on the places it reaches, and `advance_iff` puts them together.
`accepts_iff` says that the decision agrees with the description.
-/

namespace ParseAudit

/-- A set of octets. -/
inductive OctetClass where
  /-- Every octet. -/
  | all
  /-- Every octet but the slash. -/
  | noSlash
  /-- One octet. -/
  | one (octet : UInt8)
  /-- The octets within some of the ranges, or those within none. -/
  | ranges (negated : Bool) (items : List (UInt8 × UInt8))
  deriving DecidableEq, Repr

namespace OctetClass

/-- The octet that parts segments. -/
def slash : UInt8 := 0x2F

/-- Whether an octet belongs to a class. -/
def contains : OctetClass → UInt8 → Bool
  | all, _ => true
  | noSlash, b => b != slash
  | one octet, b => b == octet
  | ranges negated items, b => items.any (fun (low, high) => low ≤ b && b ≤ high) != negated

end OctetClass

/-- A regular expression over octets. -/
inductive Regular where
  /-- Nothing but the empty sequence. -/
  | empty
  /-- One octet of a class. -/
  | octet (set : OctetClass)
  /-- Any number of octets of a class. -/
  | many (set : OctetClass)
  /-- One expression after another. -/
  | seq (first second : Regular)
  /-- One expression or another. -/
  | alt (left right : Regular)
  deriving DecidableEq, Repr

namespace Regular

/-- Which sequences an expression describes. -/
inductive Matches : Regular → Octets → Prop where
  | empty : Matches empty []
  | octet {set : OctetClass} {b : UInt8} : set.contains b = true → Matches (octet set) [b]
  | many {set : OctetClass} {w : Octets} :
    (∀ b ∈ w, set.contains b = true) → Matches (many set) w
  | seq {r s : Regular} {u v : Octets} : Matches r u → Matches s v → Matches (seq r s) (u ++ v)
  | left {r s : Regular} {u : Octets} : Matches r u → Matches (alt r s) u
  | right {r s : Regular} {u : Octets} : Matches s u → Matches (alt r s) u

section Matches

variable {r s : Regular} {set : OctetClass} {w : Octets}

theorem matches_empty_iff : Matches empty w ↔ w = [] := by
  constructor
  · rintro ⟨⟩
    rfl
  · rintro rfl
    exact .empty

theorem matches_octet_iff : Matches (octet set) w ↔ ∃ b, set.contains b = true ∧ w = [b] := by
  constructor
  · rintro (_ | ⟨hb⟩)
    exact ⟨_, hb, rfl⟩
  · rintro ⟨b, hb, rfl⟩
    exact .octet hb

theorem matches_many_iff : Matches (many set) w ↔ ∀ b ∈ w, set.contains b = true := by
  constructor
  · rintro (_ | _ | ⟨hw⟩)
    exact hw
  · exact .many

theorem matches_seq_iff :
    Matches (seq r s) w ↔ ∃ u v, w = u ++ v ∧ Matches r u ∧ Matches s v := by
  constructor
  · rintro (_ | _ | _ | ⟨hr, hs⟩)
    exact ⟨_, _, rfl, hr, hs⟩
  · rintro ⟨u, v, rfl, hr, hs⟩
    exact .seq hr hs

theorem matches_alt_iff : Matches (alt r s) w ↔ Matches r w ∨ Matches s w := by
  constructor
  · rintro (_ | _ | _ | _ | hr | hs)
    · exact .inl hr
    · exact .inr hs
  · rintro (hr | hs)
    · exact .left hr
    · exact .right hs

end Matches

/-! ## Marks

A row of marks has one for each place of a sequence: one in front of each octet, and one behind the
last.
-/

/-- Moves marks on by any number of octets of a class; `reached` is a mark that comes in from the
left. -/
def spread (set : OctetClass) (reached : Bool) : Octets → List Bool → List Bool
  | _, [] => []
  | [], mark :: _ => [mark || reached]
  | b :: bs, mark :: marks =>
    let here := mark || reached
    here :: spread set (here && set.contains b) bs marks

/-- Moves marks on by what an expression describes. -/
def advance (w : Octets) : Regular → List Bool → List Bool
  | empty, marks => marks
  | octet set, marks => false :: List.zipWith (fun b mark => mark && set.contains b) w marks
  | many set, marks => spread set false w marks
  | seq r s, marks =>
    let reached := r.advance w marks
    -- Where nothing is reached, nothing is reached later.
    if reached.contains true then s.advance w reached else reached
  | alt r s, marks => List.zipWith (· || ·) (r.advance w marks) (s.advance w marks)

/-- Whether an expression describes a sequence: its end is reached from its start. -/
def accepts (r : Regular) (w : Octets) : Bool :=
  (r.advance w (true :: w.map fun _ => false)).getLastD false

/-! ## The decision is right -/

/-- What lies between two places of a sequence. -/
def between (i j : Nat) (w : Octets) : Octets := (w.drop i).take (j - i)

theorem between_append {i k j : Nat} (hik : i ≤ k) (hkj : k ≤ j) (w : Octets) :
    between i k w ++ between k j w = between i j w := by
  have hk : w.drop k = (w.drop i).drop (k - i) := by
    rw [List.drop_drop, Nat.add_sub_cancel' hik]
  have hj : j - i = (k - i) + (j - k) := by omega
  rw [between, between, between, hk, hj, List.take_add]

theorem length_between {i j : Nat} {w : Octets} (hij : i ≤ j) (hj : j ≤ w.length) :
    (between i j w).length = j - i := by
  simp only [between, List.length_take, List.length_drop]
  omega

/-- A cut of what lies between two places is a place between them. -/
theorem exists_between_of_append {i j : Nat} {w u v : Octets} (hij : i ≤ j) (hj : j ≤ w.length)
    (h : between i j w = u ++ v) :
    ∃ k, i ≤ k ∧ k ≤ j ∧ between i k w = u ∧ between k j w = v := by
  have hlen := length_between hij hj
  rw [h, List.length_append] at hlen
  have whole := between_append (Nat.le_add_right i u.length) (by omega : i + u.length ≤ j) w
  rw [h] at whole
  have first := length_between (Nat.le_add_right i u.length) (by omega : i + u.length ≤ w.length)
  obtain ⟨hu, hv⟩ := List.append_inj whole (by omega)
  exact ⟨i + u.length, by omega, by omega, hu, hv⟩

theorem length_spread {set : OctetClass} {reached : Bool} {w : Octets} {marks : List Bool}
    (h : marks.length = w.length + 1) : (spread set reached w marks).length = w.length + 1 := by
  induction w generalizing reached marks with
  | nil =>
    match marks, h with
    | [_], _ => rfl
  | cons b w ih =>
    match marks, h with
    | _ :: marks, h =>
      simp only [spread, List.length_cons] at h ⊢
      rw [ih (by omega)]

theorem length_advance {r : Regular} {w : Octets} {marks : List Bool}
    (h : marks.length = w.length + 1) : (r.advance w marks).length = w.length + 1 := by
  induction r generalizing marks with
  | empty => exact h
  | octet set => simp [advance, h]
  | many set => exact length_spread h
  | seq r s ihr ihs =>
    rw [advance]
    split
    · exact ihs (ihr h)
    · exact ihr h
  | alt r s ihr ihs => simp [advance, ihr h, ihs h]

/-- A place is marked after `spread` iff a mark comes in over octets of the class alone. -/
theorem spread_iff {set : OctetClass} {reached : Bool} {w : Octets} {marks : List Bool}
    (h : marks.length = w.length + 1) (j : Nat) :
    (spread set reached w marks)[j]? = some true ↔
      j ≤ w.length ∧ ((reached = true ∧ ∀ b ∈ w.take j, set.contains b = true)
        ∨ ∃ i, i ≤ j ∧ marks[i]? = some true ∧ ∀ b ∈ between i j w, set.contains b = true) := by
  induction w generalizing reached marks j with
  | nil =>
    match marks, h with
    | [mark], _ =>
      cases j with
      | zero => cases mark <;> cases reached <;> simp [spread, between]
      | succ j => simp [spread]
  | cons b w ih =>
    match marks, h with
    | mark :: marks, h =>
      cases j with
      | zero => cases mark <;> cases reached <;> simp [spread, between]
      | succ j =>
        have hlen : marks.length = w.length + 1 := by simpa using h
        simp only [spread, List.getElem?_cons_succ, ih hlen j, List.length_cons,
          Nat.add_le_add_iff_right, List.take_succ_cons, List.forall_mem_cons]
        refine and_congr_right fun _ => ?_
        constructor
        · rintro (⟨hb, hw⟩ | ⟨i, hij, hi, hw⟩)
          · simp only [Bool.and_eq_true, Bool.or_eq_true] at hb
            rcases hb with ⟨hm | hr, hb⟩
            · exact .inr ⟨0, Nat.zero_le _, by simp [hm], by simpa [between] using ⟨hb, hw⟩⟩
            · exact .inl ⟨hr, hb, hw⟩
          · exact .inr ⟨i + 1, by omega, by simpa using hi, by simpa [between] using hw⟩
        · rintro (⟨hr, hb, hw⟩ | ⟨i, hij, hi, hw⟩)
          · exact .inl ⟨by simp [hr, hb], hw⟩
          · cases i with
            | zero =>
              simp only [List.getElem?_cons_zero, Option.some.injEq] at hi
              simp only [between, List.drop_zero, Nat.sub_zero, List.take_succ_cons,
                List.forall_mem_cons] at hw
              exact .inl ⟨by simp [hi, hw.1], hw.2⟩
            | succ i =>
              exact .inr ⟨i, by omega, by simpa using hi, by simpa [between] using hw⟩

/-- From a marked place an expression reaches each place that what it describes lies in front of. -/
def Reaches (r : Regular) (w : Octets) (marks : List Bool) (j : Nat) : Prop :=
  j ≤ w.length ∧ ∃ i, i ≤ j ∧ marks[i]? = some true ∧ Matches r (between i j w)

section Reaches

variable {r s : Regular} {set : OctetClass} {w : Octets} {marks reached : List Bool}

/-- Nothing lies between two places iff they are one. -/
theorem reaches_empty_iff {j : Nat} :
    Reaches empty w marks j ↔ j ≤ w.length ∧ marks[j]? = some true := by
  unfold Reaches
  simp only [matches_empty_iff]
  refine and_congr_right fun hj => ?_
  constructor
  · rintro ⟨i, hij, hi, hnone⟩
    have hlen := length_between hij hj
    rw [hnone, List.length_nil] at hlen
    obtain rfl : i = j := by omega
    exact hi
  · intro hmark
    exact ⟨j, Nat.le_refl j, hmark, by simp [between]⟩

/-- What lies between two places is one octet iff the later one is next. -/
theorem between_eq_singleton_iff {i j : Nat} {b : UInt8} (hij : i ≤ j) (hj : j ≤ w.length) :
    between i j w = [b] ↔ j = i + 1 ∧ w[i]? = some b := by
  constructor
  · intro hb
    have hlen := length_between hij hj
    rw [hb, List.length_singleton] at hlen
    obtain rfl : j = i + 1 := by omega
    rw [between, List.drop_eq_getElem_cons hj, Nat.add_sub_cancel_left] at hb
    exact ⟨rfl, List.getElem?_eq_some_iff.2 ⟨hj, (List.cons.inj hb).1⟩⟩
  · rintro ⟨rfl, hi⟩
    obtain ⟨hlt, hb⟩ := List.getElem?_eq_some_iff.1 hi
    rw [between, List.drop_eq_getElem_cons hlt, hb, Nat.add_sub_cancel_left]
    rfl

theorem not_reaches_octet_zero : ¬Reaches (octet set) w marks 0 := by
  rintro ⟨hj, i, hij, -, hoctet⟩
  obtain ⟨b, -, hb⟩ := matches_octet_iff.1 hoctet
  cases ((between_eq_singleton_iff hij hj).1 hb).1

theorem reaches_octet_succ_iff {j : Nat} :
    Reaches (octet set) w marks (j + 1) ↔
      ∃ b, w[j]? = some b ∧ marks[j]? = some true ∧ set.contains b = true := by
  constructor
  · rintro ⟨hj, i, hij, hi, hoctet⟩
    obtain ⟨b, hset, hb⟩ := matches_octet_iff.1 hoctet
    obtain ⟨hnext, hw⟩ := (between_eq_singleton_iff hij hj).1 hb
    obtain rfl : j = i := Nat.succ.inj hnext
    exact ⟨b, hw, hi, hset⟩
  · rintro ⟨b, hw, hmark, hset⟩
    have hj : j + 1 ≤ w.length := (List.getElem?_eq_some_iff.1 hw).1
    have hb := (between_eq_singleton_iff (Nat.le_succ j) hj).2 ⟨rfl, hw⟩
    exact ⟨hj, j, Nat.le_succ j, hmark, matches_octet_iff.2 ⟨b, hset, hb⟩⟩

/-- The second expression goes on from the places that the first one reaches. -/
theorem reaches_seq_iff (h : ∀ k, reached[k]? = some true ↔ Reaches r w marks k) {j : Nat} :
    Reaches (seq r s) w marks j ↔ Reaches s w reached j := by
  refine and_congr_right fun hj => ?_
  constructor
  · rintro ⟨i, hij, hi, hboth⟩
    obtain ⟨u, v, huv, hr, hs⟩ := matches_seq_iff.1 hboth
    obtain ⟨k, hik, hkj, rfl, rfl⟩ := exists_between_of_append hij hj huv
    exact ⟨k, hkj, (h k).2 ⟨Nat.le_trans hkj hj, i, hik, hi, hr⟩, hs⟩
  · rintro ⟨k, hkj, hk, hs⟩
    obtain ⟨-, i, hik, hi, hr⟩ := (h k).1 hk
    exact ⟨i, Nat.le_trans hik hkj, hi, between_append hik hkj w ▸ .seq hr hs⟩

theorem reaches_alt_iff {j : Nat} :
    Reaches (alt r s) w marks j ↔ Reaches r w marks j ∨ Reaches s w marks j := by
  unfold Reaches
  simp only [matches_alt_iff, and_or_left, exists_or]

/-- An octet moves each mark over the octet of the class behind it. -/
theorem advance_octet_iff (j : Nat) :
    ((octet set).advance w marks)[j]? = some true ↔ Reaches (octet set) w marks j := by
  cases j with
  | zero =>
    refine iff_of_false ?_ not_reaches_octet_zero
    simp [advance]
  | succ j =>
    rw [reaches_octet_succ_iff, advance, List.getElem?_cons_succ, List.getElem?_zipWith]
    cases w[j]? <;> cases marks[j]? <;> simp

theorem advance_many_iff (h : marks.length = w.length + 1) (j : Nat) :
    ((many set).advance w marks)[j]? = some true ↔ Reaches (many set) w marks j := by
  rw [advance, spread_iff h]
  unfold Reaches
  simp [matches_many_iff]

/-- An expression that starts from no mark reaches nothing, so it makes no difference that the
second one of two is left out then. -/
theorem advance_seq_iff
    (h : ∀ k, (s.advance w (r.advance w marks))[k]? = some true ↔
      Reaches s w (r.advance w marks) k) (j : Nat) :
    ((seq r s).advance w marks)[j]? = some true ↔ Reaches s w (r.advance w marks) j := by
  rw [advance]
  split
  · exact h j
  · next hnone =>
    have hstuck : ∀ k, (r.advance w marks)[k]? ≠ some true := fun k hk =>
      hnone (List.contains_iff_mem.2 (List.mem_of_getElem? hk))
    refine iff_of_false (hstuck j) ?_
    rintro ⟨-, k, -, hk, -⟩
    exact hstuck k hk

theorem advance_alt_iff (h : marks.length = w.length + 1) (j : Nat) :
    ((alt r s).advance w marks)[j]? = some true ↔
      (r.advance w marks)[j]? = some true ∨ (s.advance w marks)[j]? = some true := by
  have hr := length_advance (r := r) h
  have hs := length_advance (r := s) h
  rw [advance, List.getElem?_zipWith]
  by_cases hj : j < w.length + 1
  · simp [List.getElem?_eq_getElem (hr ▸ hj), List.getElem?_eq_getElem (hs ▸ hj)]
  · simp [List.getElem?_eq_none (by omega : (r.advance w marks).length ≤ j),
      List.getElem?_eq_none (by omega : (s.advance w marks).length ≤ j)]

end Reaches

/-- A place is marked after `advance` iff the expression reaches it. -/
theorem advance_iff {r : Regular} {w : Octets} {marks : List Bool}
    (h : marks.length = w.length + 1) (j : Nat) :
    (r.advance w marks)[j]? = some true ↔ Reaches r w marks j := by
  induction r generalizing marks j with
  | empty =>
    rw [reaches_empty_iff, advance]
    refine ⟨fun hj => ⟨?_, hj⟩, And.right⟩
    have hlt := (List.getElem?_eq_some_iff.1 hj).1
    omega
  | octet set => exact advance_octet_iff j
  | many set => exact advance_many_iff h j
  | seq r s ihr ihs =>
    rw [reaches_seq_iff (ihr h)]
    exact advance_seq_iff (ihs (length_advance h)) j
  | alt r s ihr ihs => rw [reaches_alt_iff, advance_alt_iff h, ihr h, ihs h]

/-- The decision agrees with the description. -/
theorem accepts_iff {r : Regular} {w : Octets} : r.accepts w = true ↔ Matches r w := by
  have hlen : (true :: w.map fun _ => false).length = w.length + 1 := by simp
  have hend := length_advance (r := r) hlen
  have last : r.accepts w = true ↔
      (r.advance w (true :: w.map fun _ => false))[w.length]? = some true := by
    rw [accepts, List.getLastD_eq_getLast?, List.getLast?_eq_getElem?, hend, Nat.add_sub_cancel]
    rw [List.getElem?_eq_getElem (by omega)]
    simp
  rw [last, advance_iff hlen]
  constructor
  · rintro ⟨_, i, _, hi, hm⟩
    cases i with
    | zero => simpa [between] using hm
    | succ i =>
      simp only [List.getElem?_cons_succ, List.getElem?_map, Option.map_eq_some_iff] at hi
      obtain ⟨_, _, hf⟩ := hi
      cases hf
  · intro hm
    exact ⟨Nat.le_refl _, 0, Nat.zero_le _, by simp, by simpa [between] using hm⟩

end Regular

end ParseAudit
