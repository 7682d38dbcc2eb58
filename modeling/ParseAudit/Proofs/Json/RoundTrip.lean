import ParseAudit.Proofs.Json.Sorted
import ParseAudit.Proofs.Json.Tokens
/-!
# JSON is read back

A value that was written is read as the same value with the members of its objects in the order of
their keys.  Two things are left out: floating-point numbers, and values that nest deeper than the
reader goes.

* `value?_prettyAt`: a value at any place of a text;
* `parse?_pretty`: a value on its own.
-/

namespace ParseAudit.Json

/-! ## Values that can be read back -/

/-- A value without floating-point numbers, whose containers nest at most so deep. -/
inductive Plain : Nat → Json → Prop where
  | null {n : Nat} : Plain n .null
  | bool {n : Nat} (b : Bool) : Plain n (.bool b)
  | num {n : Nat} {k : JsonNumber} (whole : ∀ x, k ≠ .real x) : Plain n (.num k)
  | str {n : Nat} (s : String) : Plain n (.str s)
  | arr {n : Nat} {items : List Json} (inner : ∀ v ∈ items, Plain n v) : Plain (n + 1) (.arr items)
  | obj {n : Nat} {members : Members} (inner : ∀ m ∈ members, Plain n m.2) :
    Plain (n + 1) (.obj members)

theorem Plain.mono {n n' : Nat} {v : Json} (h : Plain n v) (hle : n ≤ n') : Plain n' v := by
  induction h generalizing n' with
  | null => exact .null
  | bool b => exact .bool b
  | num whole => exact .num whole
  | str s => exact .str s
  | arr _ ih =>
    obtain ⟨n', rfl⟩ := Nat.exists_eq_add_of_lt (Nat.lt_of_succ_le hle)
    exact .arr fun v hv => ih v hv (by omega)
  | obj _ ih =>
    obtain ⟨n', rfl⟩ := Nat.exists_eq_add_of_lt (Nat.lt_of_succ_le hle)
    exact .obj fun m hm => ih m hm (by omega)

/-! ## Values at any place -/

namespace Reader

/-- Blanks between tokens. -/
def AllSpace (b : List Char) : Prop := ∀ c ∈ b, isSpace c = true

theorem allSpace_newline (depth : Nat) : AllSpace (newline depth) := by
  intro c hc
  rcases List.mem_cons.1 hc with rfl | hc
  · rfl
  · rw [(List.mem_replicate.1 hc).2]
    rfl

theorem skipSpace_append {b : List Char} (hb : AllSpace b) {c : Char} (hc : isSpace c = false)
    (s : List Char) : skipSpace (b ++ c :: s) = c :: s := by
  rw [skipSpace, List.dropWhile_append_of_pos hb]
  exact List.dropWhile_cons_of_neg (by simp [hc])

theorem skipSpace_cons {c : Char} (hc : isSpace c = false) (s : List Char) :
    skipSpace (c :: s) = c :: s :=
  skipSpace_append (b := []) nofun hc s

theorem endsNumber_cons {c : Char} (hc : goesOn c = false) (s : List Char) :
    EndsNumber (c :: s) := by
  rintro d ⟨⟩
  exact hc

/-- A value at some depth of a text is read back, whatever stands around it. -/
def ReadsBack (n : Nat) (v : Json) : Prop :=
  ∀ d fuel depth b rest, (prettyAt d v).length ≤ fuel → n ≤ depth → AllSpace b →
    EndsNumber rest → value? fuel depth (b ++ prettyAt d v ++ rest) = some (v.sorted, rest)

/-- Whether a number may begin with a character. -/
def StartsNumber (c : Char) : Prop := c = '-' ∨ c.isDigit = true

theorem StartsNumber.ne {c d : Char} (hc : StartsNumber c) (hminus : d ≠ '-')
    (hdigit : d.isDigit = false) : c ≠ d := by
  rintro rfl
  rcases hc with hc | hc
  · exact hminus hc
  · rw [hdigit] at hc
    cases hc

theorem StartsNumber.isSpace_eq_false {c : Char} (hc : StartsNumber c) : isSpace c = false := by
  simp [isSpace, hc.ne (d := ' ') (by decide) (by decide),
    hc.ne (d := '\n') (by decide) (by decide), hc.ne (d := '\t') (by decide) (by decide),
    hc.ne (d := '\r') (by decide) (by decide)]

theorem exists_text_eq_cons {k : JsonNumber} (hk : ∀ x, k ≠ .real x) :
    ∃ c cs, k.text.toList = c :: cs ∧ StartsNumber c := by
  cases k with
  | natural n hn =>
    rw [JsonNumber.text, Text.natural, String.toList_ofList]
    cases hds : Nat.toDigits 10 n with
    | nil => exact absurd hds Nat.toDigits_ne_nil
    | cons c cs =>
      exact ⟨c, cs, rfl, .inr (Nat.isDigit_of_mem_toDigits (b := 10) (n := n) (by decide)
        (by decide) (hds ▸ List.mem_cons_self))⟩
  | negative n hn => exact ⟨'-', (Text.natural n).toList, by simp [JsonNumber.text], .inl rfl⟩
  | real x => exact absurd rfl (hk x)

/-- A value begins with a character that is neither blank nor the end of an array. -/
theorem exists_prettyAt_eq_cons {n : Nat} {v : Json} (h : Plain n v) (d : Nat) :
    ∃ c cs, prettyAt d v = c :: cs ∧ isSpace c = false ∧ c ≠ ']' := by
  cases h with
  | null => exact ⟨'n', _, rfl, rfl, by decide⟩
  | bool b =>
    cases b with
    | true => exact ⟨'t', _, rfl, rfl, by decide⟩
    | false => exact ⟨'f', _, rfl, rfl, by decide⟩
  | @num _ k whole =>
    obtain ⟨c, cs, htext, hc⟩ := exists_text_eq_cons whole
    exact ⟨c, cs, htext, hc.isSpace_eq_false, hc.ne (by decide) (by decide)⟩
  | str s => exact ⟨'"', _, rfl, rfl, by decide⟩
  | @arr _ items inner =>
    cases items with
    | nil => exact ⟨'[', _, rfl, rfl, by decide⟩
    | cons x xs => exact ⟨'[', _, rfl, rfl, by decide⟩
  | @obj _ members inner =>
    cases members with
    | nil => exact ⟨'{', _, rfl, rfl, by decide⟩
    | cons m ms => exact ⟨'{', _, rfl, rfl, by decide⟩

/-! ### One step of the reader -/

/-- What is read behind the bracket that opens an array. -/
def itemsOrEnd? (fuel depth : Nat) : List Char → Option (Json × List Char)
  | ']' :: rest => some (.arr [], rest)
  | cs => (items? fuel depth cs).map fun (items, rest) => (.arr items, rest)

/-- What is read behind the brace that opens an object. -/
def membersOrEnd? (fuel depth : Nat) : List Char → Option (Json × List Char)
  | '}' :: rest => some (.obj [], rest)
  | cs => (members? fuel depth [] cs).map fun (members, rest) => (.obj members, rest)

section Step

variable {b b' : List Char} (hb : AllSpace b) (fuel depth : Nat)

include hb

/-- Blanks in front of a value are skipped. -/
theorem value?_append {c : Char} (hc : isSpace c = false) (cs : List Char) :
    value? (fuel + 1) depth (b ++ c :: cs) = value? (fuel + 1) depth (c :: cs) := by
  rw [value?, value?, skipSpace_append hb hc, skipSpace_cons hc]

theorem value?_null (rest : List Char) :
    value? (fuel + 1) depth (b ++ 'n' :: 'u' :: 'l' :: 'l' :: rest) = some (.null, rest) := by
  rw [value?_append hb fuel depth rfl]
  rfl

theorem value?_true (rest : List Char) :
    value? (fuel + 1) depth (b ++ 't' :: 'r' :: 'u' :: 'e' :: rest) = some (.bool true, rest) := by
  rw [value?_append hb fuel depth rfl]
  rfl

theorem value?_false (rest : List Char) :
    value? (fuel + 1) depth (b ++ 'f' :: 'a' :: 'l' :: 's' :: 'e' :: rest) =
      some (.bool false, rest) := by
  rw [value?_append hb fuel depth rfl]
  rfl

theorem value?_quote (cs : List Char) :
    value? (fuel + 1) depth (b ++ '"' :: cs) =
      (text? cs).map fun (t, rest) => (.str (String.ofList t), rest) := by
  rw [value?_append hb fuel depth rfl]
  rfl

theorem value?_number {c : Char} (hc : StartsNumber c) (cs : List Char) :
    value? (fuel + 1) depth (b ++ c :: cs) =
      (number? (c :: cs)).map fun (n, rest) => (.num n, rest) := by
  have hne : ∀ d ∈ ['n', 't', 'f', '"', '[', '{'], c ≠ d := by
    intro d hd
    have hall : ∀ d ∈ ['n', 't', 'f', '"', '[', '{'], d ≠ '-' ∧ d.isDigit = false := by
      simp only [List.forall_mem_cons]
      exact ⟨by decide, by decide, by decide, by decide, by decide, by decide, nofun⟩
    exact hc.ne (hall d hd).1 (hall d hd).2
  rw [value?, skipSpace_append hb hc.isSpace_eq_false]
  split
  case h_7 => rfl
  all_goals
    next heq =>
      injection heq with heq
      exact absurd heq (hne _ (by decide))

theorem value?_emptyArray (rest : List Char) :
    value? (fuel + 1) (depth + 1) (b ++ '[' :: ']' :: rest) = some (.arr [], rest) := by
  rw [value?_append hb fuel (depth + 1) rfl]
  rfl

theorem value?_array (hb' : AllSpace b') {c : Char} (hspace : isSpace c = false) (hc : c ≠ ']')
    (cs : List Char) :
    value? (fuel + 1) (depth + 1) (b ++ '[' :: (b' ++ c :: cs)) =
      (items? fuel depth (c :: cs)).map fun (items, rest) => (.arr items, rest) := by
  rw [value?_append hb fuel (depth + 1) rfl]
  show itemsOrEnd? fuel depth (skipSpace (b' ++ c :: cs)) = _
  rw [skipSpace_append hb' hspace]
  unfold itemsOrEnd?
  split
  · next heq =>
    injection heq with heq
    exact absurd heq hc
  · rfl

theorem value?_emptyObject (rest : List Char) :
    value? (fuel + 1) (depth + 1) (b ++ '{' :: '}' :: rest) = some (.obj [], rest) := by
  rw [value?_append hb fuel (depth + 1) rfl]
  rfl

theorem value?_object (hb' : AllSpace b') (cs : List Char) :
    value? (fuel + 1) (depth + 1) (b ++ '{' :: (b' ++ '"' :: cs)) =
      (members? fuel depth [] ('"' :: cs)).map fun (members, rest) => (.obj members, rest) := by
  rw [value?_append hb fuel (depth + 1) rfl]
  show membersOrEnd? fuel depth (skipSpace (b' ++ '"' :: cs)) = _
  rw [skipSpace_append hb' rfl]
  rfl

end Step

/-! ### Scalars -/

/-- The text of a value is not empty, so fuel for all of it is fuel for a step. -/
theorem readsBack_of_step {n : Nat} {v : Json} (hv : Plain n v)
    (hstep : ∀ d fuel depth b rest, (prettyAt d v).length ≤ fuel + 1 → n ≤ depth → AllSpace b →
      EndsNumber rest →
        value? (fuel + 1) depth (b ++ (prettyAt d v ++ rest)) = some (v.sorted, rest)) :
    ReadsBack n v := by
  intro d fuel depth b rest hfuel hdepth hb hrest
  obtain ⟨c, cs, htext, -⟩ := exists_prettyAt_eq_cons hv d
  have hpos : 0 < (prettyAt d v).length := by
    rw [htext]
    exact Nat.succ_pos _
  obtain ⟨fuel, rfl⟩ : ∃ k, fuel = k + 1 := ⟨fuel - 1, by omega⟩
  rw [List.append_assoc]
  exact hstep d fuel depth b rest hfuel hdepth hb hrest

theorem readsBack_null (n : Nat) : ReadsBack n .null :=
  readsBack_of_step .null fun _ fuel depth _ rest _ _ hb _ => value?_null hb fuel depth rest

theorem readsBack_bool (n : Nat) (t : Bool) : ReadsBack n (.bool t) := by
  refine readsBack_of_step (.bool t) fun _ fuel depth _ rest _ _ hb _ => ?_
  cases t with
  | true => exact value?_true hb fuel depth rest
  | false => exact value?_false hb fuel depth rest

theorem readsBack_num {n : Nat} {k : JsonNumber} (hk : ∀ x, k ≠ .real x) :
    ReadsBack n (.num k) := by
  refine readsBack_of_step (.num hk) fun d fuel depth b rest _ _ hb hrest => ?_
  obtain ⟨c, cs, htext, hc⟩ := exists_text_eq_cons hk
  have hread := number?_text hk hrest
  rw [htext, List.cons_append] at hread
  rw [prettyAt, htext, List.cons_append, value?_number hb fuel depth hc, hread]
  rfl

theorem readsBack_str (n : Nat) (s : String) : ReadsBack n (.str s) := by
  refine readsBack_of_step (.str s) fun d fuel depth b rest _ _ hb _ => ?_
  rw [prettyAt, quote, List.cons_append, List.cons_append, List.append_assoc,
    List.singleton_append, value?_quote hb, text?_flatMap_escapeChar]
  simp only [Option.map_some, String.ofList_toList]
  rfl

/-! ### Containers -/

/-- What follows a value in a container does not go on with a number. -/
theorem endsNumber_prettyItems (d d' : Nat) (xs : List Json) (rest : List Char) :
    EndsNumber (prettyItems d xs ++ (newline d' ++ rest)) := by
  cases xs with
  | nil => exact endsNumber_cons rfl _
  | cons x xs => exact endsNumber_cons rfl _

theorem endsNumber_prettyMembers (d d' : Nat) (ms : List (String × Json)) (rest : List Char) :
    EndsNumber (prettyMembers d ms ++ (newline d' ++ rest)) := by
  cases ms with
  | nil => exact endsNumber_cons rfl _
  | cons m ms => exact endsNumber_cons rfl _

/-- Items are read back up to the end of their array. -/
theorem items?_prettyItems {n d d' depth : Nat} (hdepth : n ≤ depth) {x : Json} {xs : List Json}
    (h : ∀ v ∈ x :: xs, ReadsBack n v) {fuel : Nat} {b rest : List Char} (hb : AllSpace b)
    (hfuel : (prettyAt d x).length + (prettyItems d xs).length < fuel) :
    items? fuel depth (b ++ prettyAt d x ++ (prettyItems d xs ++ (newline d' ++ ']' :: rest))) =
      some (sortedItems (x :: xs), rest) := by
  induction xs generalizing x fuel b with
  | nil =>
    cases fuel with
    | zero => cases hfuel
    | succ fuel =>
      have hfirst := h x List.mem_cons_self d fuel depth b _ (by omega) hdepth hb
        (endsNumber_prettyItems d d' [] (']' :: rest))
      rw [items?, hfirst]
      simp only [prettyItems, List.nil_append, Option.bind_eq_bind, Option.bind_some,
        skipSpace_append (allSpace_newline d') (rfl : isSpace ']' = false)]
      rfl
  | cons y ys ih =>
    cases fuel with
    | zero => cases hfuel
    | succ fuel =>
      have hfirst := h x List.mem_cons_self d fuel depth b _ (by omega) hdepth hb
        (endsNumber_prettyItems d d' (y :: ys) (']' :: rest))
      -- The comma in front of an item pays for the step that reads it.
      have hlength : (prettyItems d (y :: ys)).length =
          1 + (newline d).length + (prettyAt d y).length + (prettyItems d ys).length := by
        simp only [prettyItems, List.length_append, List.length_cons]
        omega
      have hfuel' : (prettyAt d y).length + (prettyItems d ys).length < fuel := by omega
      have hrest := ih (fun v hv => h v (List.mem_cons_of_mem x hv)) (allSpace_newline d) hfuel'
      rw [items?, hfirst]
      simp only [prettyItems, List.cons_append, Option.bind_eq_bind, Option.bind_some,
        skipSpace_cons (rfl : isSpace ',' = false)]
      rw [List.append_assoc (newline d ++ prettyAt d y), hrest]
      rfl

/-- The first step of reading members: a key and its value. -/
theorem members?_step {n d depth : Nat} (hdepth : n ≤ depth) (k : String) {v : Json}
    (hv : ReadsBack n v) {known : Members} {fuel : Nat} {b rest : List Char} (hb : AllSpace b)
    (hfuel : (prettyAt d v).length ≤ fuel) (hrest : EndsNumber rest) :
    members? (fuel + 1) depth known (b ++ (quote k ++ ([':', ' '] ++ prettyAt d v ++ rest))) =
      match skipSpace rest with
      | ',' :: rest => members? fuel depth (known.insert k v.sorted) rest
      | '}' :: rest => some (known.insert k v.sorted, rest)
      | _ => none := by
  have hblank : AllSpace [' '] := by
    intro c hc
    rw [List.mem_singleton.1 hc]
    rfl
  have hvalue := hv d fuel depth [' '] rest hfuel hdepth hblank hrest
  have hquote : quote k ++ ([':', ' '] ++ prettyAt d v ++ rest) =
      '"' :: (k.toList.flatMap escapeChar ++ '"' :: ([':', ' '] ++ prettyAt d v ++ rest)) := by
    simp [quote]
  rw [hquote, members?, skipSpace_append hb rfl]
  simp only [text?_flatMap_escapeChar, Option.bind_eq_bind, Option.bind_some, List.cons_append,
    List.nil_append, skipSpace_cons (rfl : isSpace ':' = false), String.ofList_toList]
  rw [List.singleton_append, List.cons_append] at hvalue
  rw [hvalue]
  rfl

/-- Members are read back up to the end of their object, and put in order after those that are
known already. -/
theorem members?_prettyMembers {n d d' depth : Nat} (hdepth : n ≤ depth) {k : String} {v : Json}
    {ms : List (String × Json)} (h : ∀ m ∈ (k, v) :: ms, ReadsBack n m.2) {known : Members}
    {fuel : Nat} {b rest : List Char} (hb : AllSpace b)
    (hfuel : (prettyAt d v).length + (prettyMembers d ms).length < fuel) :
    members? fuel depth known (b ++ (quote k ++ ([':', ' '] ++ prettyAt d v ++
      (prettyMembers d ms ++ (newline d' ++ '}' :: rest))))) =
      some (sortedMembers known ((k, v) :: ms), rest) := by
  have hv : ReadsBack n v := h (k, v) List.mem_cons_self
  have hends := endsNumber_prettyMembers d d' ms ('}' :: rest)
  induction ms generalizing k v known fuel b with
  | nil =>
    cases fuel with
    | zero => cases hfuel
    | succ fuel =>
      rw [members?_step hdepth k hv hb (by omega) hends]
      simp only [prettyMembers, List.nil_append,
        skipSpace_append (allSpace_newline d') (rfl : isSpace '}' = false)]
      rfl
  | cons m ms ih =>
    obtain ⟨k', v'⟩ := m
    cases fuel with
    | zero => cases hfuel
    | succ fuel =>
      have hlength : (prettyMembers d ((k', v') :: ms)).length =
          1 + (newline d).length + (quote k').length + 2 + (prettyAt d v').length
            + (prettyMembers d ms).length := by
        simp only [prettyMembers, List.length_append, List.length_cons, List.length_nil]
        omega
      have hfuel' : (prettyAt d v').length + (prettyMembers d ms).length < fuel := by omega
      have hnext : ∀ m ∈ (k', v') :: ms, ReadsBack n m.2 := fun m hm =>
        h m (List.mem_cons_of_mem (k, v) hm)
      rw [members?_step hdepth k hv hb (by omega) hends]
      have htext : prettyMembers d ((k', v') :: ms) ++ (newline d' ++ '}' :: rest) =
          ',' :: (newline d ++ (quote k' ++ ([':', ' '] ++ prettyAt d v' ++
            (prettyMembers d ms ++ (newline d' ++ '}' :: rest))))) := by
        simp [prettyMembers]
      rw [htext, skipSpace_cons rfl]
      exact ih hnext (allSpace_newline d) hfuel' (hnext (k', v') List.mem_cons_self)
        (endsNumber_prettyMembers d d' ms ('}' :: rest))

theorem readsBack_arr {n : Nat} {items : List Json} (inner : ∀ v ∈ items, Plain n v)
    (hitems : ∀ v ∈ items, ReadsBack n v) : ReadsBack (n + 1) (.arr items) := by
  refine readsBack_of_step (.arr inner) fun d fuel depth b rest hfuel hdepth hb _ => ?_
  obtain ⟨depth, rfl⟩ : ∃ k, depth = k + 1 := ⟨depth - 1, by omega⟩
  cases items with
  | nil => exact value?_emptyArray hb fuel depth rest
  | cons x xs =>
    obtain ⟨c, cs, hx, hspace, hc⟩ := exists_prettyAt_eq_cons (inner x List.mem_cons_self) (d + 1)
    have hlength : (prettyAt d (.arr (x :: xs))).length =
        2 + (newline (d + 1)).length + (prettyAt (d + 1) x).length
          + (prettyItems (d + 1) xs).length + (newline d).length := by
      simp only [prettyAt, List.length_append, List.length_cons, List.length_nil]
      omega
    have hread : items? fuel depth (prettyAt (d + 1) x ++ (prettyItems (d + 1) xs ++
        (newline d ++ ']' :: rest))) = some (sortedItems (x :: xs), rest) :=
      items?_prettyItems (b := []) (Nat.le_of_succ_le_succ hdepth) hitems nofun (by omega)
    have htext : prettyAt d (.arr (x :: xs)) ++ rest =
        '[' :: (newline (d + 1) ++ (prettyAt (d + 1) x ++
          (prettyItems (d + 1) xs ++ (newline d ++ ']' :: rest)))) := by
      simp [prettyAt]
    rw [hx, List.cons_append] at hread
    rw [htext, hx, List.cons_append, value?_array hb fuel depth (allSpace_newline _) hspace hc,
      hread]
    rfl

theorem readsBack_obj {n : Nat} {members : Members} (inner : ∀ m ∈ members, Plain n m.2)
    (hmembers : ∀ m ∈ members, ReadsBack n m.2) : ReadsBack (n + 1) (.obj members) := by
  refine readsBack_of_step (.obj inner) fun d fuel depth b rest hfuel hdepth hb _ => ?_
  obtain ⟨depth, rfl⟩ : ∃ k, depth = k + 1 := ⟨depth - 1, by omega⟩
  cases members with
  | nil => exact value?_emptyObject hb fuel depth rest
  | cons m ms =>
    obtain ⟨k, v⟩ := m
    have hlength : (prettyAt d (.obj ((k, v) :: ms))).length =
        4 + (newline (d + 1)).length + (quote k).length + (prettyAt (d + 1) v).length
          + (prettyMembers (d + 1) ms).length + (newline d).length := by
      simp only [prettyAt, List.length_append, List.length_cons, List.length_nil]
      omega
    have hread : members? fuel depth [] (quote k ++ ([':', ' '] ++ prettyAt (d + 1) v ++
        (prettyMembers (d + 1) ms ++ (newline d ++ '}' :: rest)))) =
          some (sortedMembers [] ((k, v) :: ms), rest) :=
      members?_prettyMembers (b := []) (Nat.le_of_succ_le_succ hdepth) hmembers nofun (by omega)
    have htext : prettyAt d (.obj ((k, v) :: ms)) ++ rest =
        '{' :: (newline (d + 1) ++ (quote k ++ ([':', ' '] ++ prettyAt (d + 1) v ++
          (prettyMembers (d + 1) ms ++ (newline d ++ '}' :: rest))))) := by
      simp [prettyAt]
    rw [quote, List.cons_append, List.cons_append] at hread
    rw [htext, quote, List.cons_append, List.cons_append,
      value?_object hb fuel depth (allSpace_newline _), hread]
    rfl

/-- Every value that nests no deeper than the reader goes is read back, at any place. -/
theorem value?_prettyAt {n : Nat} {v : Json} (h : Plain n v) : ReadsBack n v := by
  induction h with
  | null => exact readsBack_null _
  | bool t => exact readsBack_bool _ t
  | num whole => exact readsBack_num whole
  | str s => exact readsBack_str _ s
  | arr inner ih => exact readsBack_arr inner ih
  | obj inner ih => exact readsBack_obj inner ih

end Reader

/-- A value on its own is read back. -/
theorem parse?_pretty {v : Json} (h : Plain maxDepth v) : parse? v.pretty = some v.sorted := by
  have hread : Reader.value? (2 * (prettyAt 0 v).length + 2) maxDepth (prettyAt 0 v) =
      some (v.sorted, []) := by
    have hvalue := Reader.value?_prettyAt h 0 (2 * (prettyAt 0 v).length + 2) maxDepth [] []
      (by omega) (Nat.le_refl _) nofun nofun
    rwa [List.nil_append, List.append_nil] at hvalue
  rw [parse?, pretty, String.toList_ofList, ofChars?, hread]
  rfl

end ParseAudit.Json
