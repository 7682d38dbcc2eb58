import Mathlib.Data.List.Induction
import Mathlib.Data.List.Nodup
/-!
# What is seen first

Files are listed in the order in which they are first seen.  `FirstSeen` says what that means
without a loop: every member once, by the place of its first occurrence.

* `FirstSeen.seen_again`, `FirstSeen.seen_now`: what one more element adds to such a list;
* `firstSeen_eraseDups`: dropping later occurrences lists all members in this way;
* `FirstSeen.filter`: some members may be left out;
* `eraseDups_flatMap`: blocks that each repeat one member are listed by these members.
-/

namespace ParseAudit

variable {α β : Type} [DecidableEq α]

/-- The members of a list that have a property, each once, in the order in which they are first
seen. -/
structure FirstSeen (seen : List α) (p : α → Prop) (l : List α) : Prop where
  nodup : l.Nodup
  mem_iff : ∀ a, a ∈ l ↔ a ∈ seen ∧ p a
  inOrder : l.Pairwise fun a b => seen.idxOf a < seen.idxOf b

namespace FirstSeen

variable {seen l : List α} {p : α → Prop} {a : α}

/-- What is seen later does not change the order. -/
theorem inOrder_append (h : FirstSeen seen p l) (later : List α) :
    l.Pairwise fun a b => (seen ++ later).idxOf a < (seen ++ later).idxOf b := by
  refine h.inOrder.imp_of_mem ?_
  intro a b ha hb hlt
  rwa [List.idxOf_append_of_mem ((h.mem_iff a).1 ha).1,
    List.idxOf_append_of_mem ((h.mem_iff b).1 hb).1]

/-- An element that was seen before adds nothing. -/
theorem seen_again (h : FirstSeen seen p l) (ha : a ∈ seen) : FirstSeen (seen ++ [a]) p l where
  nodup := h.nodup
  mem_iff := by
    intro b
    have hb : b ∈ seen ++ [a] ↔ b ∈ seen := by
      rw [List.mem_append, List.mem_singleton, or_iff_left_of_imp fun heq => heq ▸ ha]
    rw [h.mem_iff, hb]
  inOrder := h.inOrder_append [a]

/-- A new element stands at the end. -/
theorem seen_now (h : FirstSeen seen p l) (hnew : a ∉ seen) (hp : p a) :
    FirstSeen (seen ++ [a]) p (l ++ [a]) where
  nodup := by
    refine List.nodup_append.2 ⟨h.nodup, List.nodup_singleton a, ?_⟩
    intro b hb c hc heq
    rw [List.mem_singleton] at hc
    exact hnew (hc ▸ heq ▸ ((h.mem_iff b).1 hb).1)
  mem_iff := by
    intro b
    rw [List.mem_append, List.mem_append, h.mem_iff, or_and_right, List.mem_singleton]
    exact or_congr_right (iff_self_and.2 fun heq => heq ▸ hp)
  inOrder := by
    refine List.pairwise_append.2 ⟨h.inOrder_append [a], List.pairwise_singleton _ a, ?_⟩
    intro b hb c hc
    rw [List.mem_singleton] at hc
    subst hc
    have hseen : b ∈ seen := ((h.mem_iff b).1 hb).1
    calc (seen ++ [c]).idxOf b = seen.idxOf b := List.idxOf_append_of_mem hseen
      _ < seen.length := List.idxOf_lt_length_of_mem hseen
      _ = (seen ++ [c]).idxOf c := by rw [List.idxOf_append_of_notMem hnew]; simp

/-- Members may be left out. -/
theorem filter {q : α → Prop} {test : α → Bool} (h : FirstSeen seen p l)
    (htest : ∀ a, p a ∧ test a = true ↔ q a) : FirstSeen seen q (l.filter test) where
  nodup := h.nodup.filter test
  mem_iff := by
    intro a
    rw [List.mem_filter, h.mem_iff, and_assoc, htest]
  inOrder := h.inOrder.filter test

end FirstSeen

/-! ## Dropping later occurrences -/

/-- A new element at the end is dropped if it was seen before. -/
theorem eraseDups_concat (l : List α) (a : α) :
    (l ++ [a]).eraseDups = if a ∈ l then l.eraseDups else l.eraseDups ++ [a] := by
  rw [List.eraseDups_append]
  by_cases h : a ∈ l
  · simp [List.removeAll, h]
  · simp [List.removeAll, h, List.eraseDups_cons]

/-- Without its later occurrences, every member stands where it is first seen. -/
theorem firstSeen_eraseDups (seen : List α) : FirstSeen seen (fun _ => True) seen.eraseDups := by
  induction seen using List.reverseRecOn with
  | nil => exact ⟨List.nodup_nil, by simp, List.Pairwise.nil⟩
  | append_singleton seen a ih =>
    rw [eraseDups_concat]
    split
    · next hseen => exact ih.seen_again hseen
    · next hnew => exact ih.seen_now hnew trivial

/-- Blocks that each repeat one element are listed by these elements. -/
theorem eraseDups_flatMap {l : List β} {key : β → α} {block : β → List α}
    (hnodup : (l.map key).Nodup) (hblock : ∀ b ∈ l, block b ≠ [] ∧ ∀ a ∈ block b, a = key b) :
    (l.flatMap block).eraseDups = l.map key := by
  induction l with
  | nil => rfl
  | cons b l ih =>
    obtain ⟨hnew, hnodup⟩ := List.nodup_cons.1 hnodup
    obtain ⟨hne, hkey⟩ := hblock b List.mem_cons_self
    have hrest : ∀ c ∈ l, block c ≠ [] ∧ ∀ a ∈ block c, a = key c :=
      fun c hc => hblock c (List.mem_cons_of_mem b hc)
    have hfirst : (block b).eraseDups = [key b] := by
      obtain ⟨a, as, has⟩ := List.exists_cons_of_ne_nil hne
      rw [has] at hkey ⊢
      obtain ⟨rfl, hsame⟩ := List.forall_mem_cons.1 hkey
      have hnone : as.filter (fun c => !c == key b) = [] := by
        rw [List.filter_eq_nil_iff]
        intro c hc
        simp [hsame c hc]
      rw [List.eraseDups_cons, hnone]
      rfl
    -- No later block holds the element of this one.
    have hothers : (l.flatMap block).removeAll (block b) = l.flatMap block := by
      refine List.filter_eq_self.2 ?_
      intro a ha
      obtain ⟨c, hc, hac⟩ := List.mem_flatMap.1 ha
      rw [Bool.not_eq_true', ← Bool.not_eq_true, List.elem_iff]
      intro hab
      exact hnew ((hkey a hab).symm ▸ (hrest c hc).2 a hac ▸ List.mem_map_of_mem hc)
    rw [List.flatMap_cons, List.eraseDups_append, hfirst, hothers, ih hnodup hrest]
    rfl

end ParseAudit
