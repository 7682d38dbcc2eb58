import ParseAudit.Proofs.Json.Position
import ParseAudit.Schema.Hygiene
/-!
# The golden form as a projection

The golden form replaces what changes from run to run, and nothing else.  Values are compared by
what is seen of them at the positions where nothing is replaced.

* `seenAt_normalize`: at these positions the golden form shows what the value shows;
* `normalize_eq_iff`: values have one golden form exactly if they agree at these positions, so that
  the golden form of a golden form is the same;
* `notNormalized_mem_errors_iff`: the hygiene check tells golden forms from all other values;
* `normalize_projection`: all of these together.
-/

namespace ParseAudit.Golden

open Json

/-! ## What is replaced -/

/-- The keys under which moments and durations stand. -/
def timeKeys : List String := ["started_at", "ended_at", "duration_ms"]

/-- A position at or beneath a moment or a duration. -/
def InTime (p : Position) : Prop := ∃ key ∈ timeKeys, some key ∈ p.map Step.key?

/-- A position at or beneath the version of a tool, which is replaced as a whole. -/
def InVersion (p : Position) : Prop :=
  ∃ i j rest, p = .member i "tool" :: .member j "version" :: rest

/-- An object with the members that every report has. -/
def IsReport (v : Json) : Prop :=
  ∀ key ∈ ["schema", "tool", "run", "verdict", "findings"], (v.get? key).isSome = true

/-- The positions of a value that the golden form replaces. -/
def Replaced (v : Json) (p : Position) : Prop := InTime p ∨ IsReport v ∧ InVersion p

theorem not_inTime_nil : ¬InTime [] := by
  rintro ⟨key, -, hmem⟩
  exact List.not_mem_nil hmem

theorem inTime_cons_iff {step : Step} {rest : Position} :
    InTime (step :: rest) ↔ (∃ key ∈ timeKeys, step.key? = some key) ∨ InTime rest := by
  unfold InTime
  simp only [List.map_cons, List.mem_cons, eq_comm (a := some _)]
  grind

theorem placeholder?_eq_none_iff {key : String} : placeholder? key = none ↔ key ∉ timeKeys := by
  unfold placeholder? timeKeys
  grind

/-- Whether a value looks like a report is seen without looking into it. -/
theorem isReport_congr {v w : Json} (h : v.outline = w.outline) : IsReport v ↔ IsReport w := by
  unfold IsReport
  simp only [isSome_get?_iff, h]

theorem isEnvelope_iff {members : Members} :
    isEnvelope members = true ↔ IsReport (.obj members) := by
  unfold isEnvelope envelopeKeys IsReport
  rw [List.all_eq_true]
  rfl

/-! ## Moments and durations -/

theorem hideTimesItems_eq_map (items : List Json) : hideTimesItems items = items.map hideTimes := by
  induction items with
  | nil => rfl
  | cons item rest ih => rw [hideTimesItems, ih, List.map_cons]

/-- A member is replaced by its key, or else its value is looked into. -/
theorem hideTimes_obj (members : Members) :
    hideTimes (.obj members) =
      .obj (members.map fun m => (m.1, (placeholder? m.1).getD (hideTimes m.2))) := by
  rw [hideTimes]
  congr 1
  induction members with
  | nil => rfl
  | cons m ms ih => rw [hideTimesMembers, ih, List.map_cons]

/-- Where no moment or duration stands, what is seen stays. -/
theorem seenAt_hideTimes {p : Position} (hp : ¬InTime p) (v : Json) :
    (hideTimes v).seenAt p = v.seenAt p := by
  induction p generalizing v with
  | nil =>
    cases v with
    | null | bool | num | str => rfl
    | arr items => simp [hideTimes, hideTimesItems_eq_map, outline]
    | obj members => simp [hideTimes_obj, outline]
  | cons step rest ih =>
    rw [inTime_cons_iff, not_or] at hp
    obtain ⟨hstep, hrest⟩ := hp
    cases v with
    | null | bool | num | str => rfl
    | arr items =>
      rw [hideTimes, hideTimesItems_eq_map, seenAt_cons, seenAt_cons]
      cases step with
      | member => rfl
      | item number =>
        rw [child?, child?, List.getElem?_map, Option.bind_map]
        congr 1
        funext inner
        exact ih hrest inner
    | obj members =>
      rw [hideTimes_obj]
      refine seenAt_mapMembers (f := fun key v => (placeholder? key).getD (hideTimes v)) ?_
      rintro number key _ ⟨⟩ inner
      have hkey : placeholder? key = none := by
        rw [placeholder?_eq_none_iff]
        exact fun hmem => hstep ⟨key, hmem, rfl⟩
      rw [hkey]
      exact ih hrest inner

theorem hideTimes_arr_congr {items items' : List Json} (hlength : items'.length = items.length)
    (h : ∀ (i : Nat) (hi : i < items.length) (hi' : i < items'.length),
      hideTimes items'[i] = hideTimes items[i]) :
    hideTimes (.arr items') = hideTimes (.arr items) := by
  rw [hideTimes, hideTimes, hideTimesItems_eq_map, hideTimesItems_eq_map]
  congr 1
  refine List.ext_getElem (by simp [hlength]) fun i hi' hi => ?_
  rw [List.length_map] at hi hi'
  rw [List.getElem_map, List.getElem_map]
  exact h i hi hi'

/-- Under the keys of moments and durations anything may stand. -/
theorem hideTimes_obj_congr {members members' : Members}
    (hkeys : members'.map Prod.fst = members.map Prod.fst)
    (h : ∀ (i : Nat) (hi : i < members.length) (hi' : i < members'.length),
      members'[i].1 = members[i].1 → members[i].1 ∉ timeKeys →
        hideTimes members'[i].2 = hideTimes members[i].2) :
    hideTimes (.obj members') = hideTimes (.obj members) := by
  have hlength : members'.length = members.length := by simpa using congrArg List.length hkeys
  rw [hideTimes_obj, hideTimes_obj]
  congr 1
  refine List.ext_getElem (by simp [hlength]) fun i hi' hi => ?_
  rw [List.length_map] at hi hi'
  have hkey : members'[i].1 = members[i].1 := by
    have hsame := List.getElem_of_eq hkeys (i := i) (by simpa using hi')
    rwa [List.getElem_map, List.getElem_map] at hsame
  rw [List.getElem_map, List.getElem_map, hkey]
  cases hplace : placeholder? members[i].1 with
  | some placeholder => rfl
  | none =>
    rw [Option.getD_none, Option.getD_none,
      h i hi hi' hkey (placeholder?_eq_none_iff.1 hplace)]

/-- Values that agree wherever no moment or duration stands differ in nothing else. -/
theorem hideTimes_congr {v w : Json} (h : ∀ p, ¬InTime p → w.seenAt p = v.seenAt p) :
    hideTimes w = hideTimes v := by
  -- What is seen of the two values at their roots is the same, so `w` is built as `v` is.
  induction v using nestedInduction generalizing w with
  | scalar v hv =>
    have hroot : w.outline = v.outline := Option.some.inj (h [] not_inTime_nil)
    rw [eq_of_outline_scalar (hroot.trans hv)]
  | arr items ih =>
    have hroot : w.outline = .array items.length := Option.some.inj (h [] not_inTime_nil)
    obtain ⟨items', rfl, hlength⟩ := exists_items_of_outline hroot
    refine hideTimes_arr_congr hlength fun i hi hi' => ?_
    have hitem : ∀ p, ¬InTime p → items'[i].seenAt p = items[i].seenAt p := by
      intro p hp
      rw [← seenAt_item hi, ← seenAt_item hi']
      apply h
      rw [inTime_cons_iff, not_or]
      exact ⟨by simp [Step.key?], hp⟩
    exact ih items[i] (List.getElem_mem hi) hitem
  | obj members ih =>
    have hroot : w.outline = .object (members.map Prod.fst) :=
      Option.some.inj (h [] not_inTime_nil)
    obtain ⟨members', rfl, hkeys⟩ := exists_members_of_outline hroot
    refine hideTimes_obj_congr hkeys fun i hi hi' hkey htime => ?_
    have hmember : ∀ p, ¬InTime p → members'[i].2.seenAt p = members[i].2.seenAt p := by
      intro p hp
      rw [← seenAt_member hi rfl, ← seenAt_member hi' hkey]
      apply h
      rw [inTime_cons_iff, not_or]
      exact ⟨by simpa [Step.key?] using htime, hp⟩
    exact ih members[i] (List.getElem_mem hi) hmember

/-! ## The version of the tool -/

theorem hideVersion_obj (members : Members) :
    hideVersion (.obj members) =
      .obj (members.map fun m => (m.1, if m.1 = "version" then version else m.2)) := rfl

theorem hideToolVersion_obj {members : Members} (h : IsReport (.obj members)) :
    hideToolVersion (.obj members) =
      .obj (members.map fun m => (m.1, if m.1 = "tool" then hideVersion m.2 else m.2)) :=
  if_pos (isEnvelope_iff.2 h)

theorem hideToolVersion_of_not_isReport {v : Json} (h : ¬IsReport v) : hideToolVersion v = v := by
  cases v with
  | null | bool | num | str | arr => rfl
  | obj members => exact if_neg fun henvelope => h (isEnvelope_iff.1 henvelope)

theorem seenAt_hideVersion {p : Position} (hp : ∀ j rest, p ≠ .member j "version" :: rest)
    (v : Json) : (hideVersion v).seenAt p = v.seenAt p := by
  cases v with
  | null | bool | num | str | arr => rfl
  | obj members =>
    rw [hideVersion_obj]
    refine seenAt_mapMembers (f := fun key v => if key = "version" then version else v) ?_
    rintro j key rest rfl inner
    have hkey : key ≠ "version" := by
      rintro rfl
      exact hp j rest rfl
    rw [if_neg hkey]

theorem seenAt_hideToolVersion {v : Json} {p : Position} (hp : ¬(IsReport v ∧ InVersion p)) :
    (hideToolVersion v).seenAt p = v.seenAt p := by
  by_cases hv : IsReport v
  · cases v with
    | null | bool | num | str | arr => rfl
    | obj members =>
      rw [hideToolVersion_obj hv]
      refine seenAt_mapMembers (f := fun key v => if key = "tool" then hideVersion v else v) ?_
      rintro i key rest rfl inner
      split
      · next hkey =>
        subst hkey
        apply seenAt_hideVersion
        rintro j rest' rfl
        exact hp ⟨hv, i, j, rest', rfl⟩
      · rfl
  · rw [hideToolVersion_of_not_isReport hv]

/-- At and beneath a version there is the placeholder, if there is a version. -/
theorem seenAt_hideVersion_version (v : Json) (j : Nat) (rest : Position) :
    (hideVersion v).seenAt (.member j "version" :: rest) =
      if v.outline.opens (.member j "version") then version.seenAt rest else none := by
  rw [← isSome_child?]
  cases v with
  | null | bool | num | str | arr => rfl
  | obj members =>
    rw [hideVersion_obj, seenAt_cons,
      child?_mapMembers (fun key v => if key = "version" then version else v)]
    cases (obj members).child? (.member j "version") with
    | none => rfl
    | some inner => simp

/-- In a report, this is the version of the tool.  Whether there is one is seen from outside. -/
theorem seenAt_hideToolVersion_version {v : Json} (hv : IsReport v) (i j : Nat) (rest : Position) :
    (hideToolVersion v).seenAt (.member i "tool" :: .member j "version" :: rest) =
      (v.seenAt [.member i "tool"]).bind fun seen =>
        if seen.opens (.member j "version") then version.seenAt rest else none := by
  cases v with
  | null | bool | num | str | arr => rfl
  | obj members =>
    rw [hideToolVersion_obj hv, seenAt_cons, seenAt_cons,
      child?_mapMembers (fun key v => if key = "tool" then hideVersion v else v)]
    cases (obj members).child? (.member i "tool") with
    | none => rfl
    | some tool => exact seenAt_hideVersion_version tool j rest

theorem not_replaced_nil (v : Json) : ¬Replaced v [] := by
  rintro (htime | ⟨-, i, j, rest, hversion⟩)
  · exact not_inTime_nil htime
  · cases hversion

/-- The tool itself is not replaced. -/
theorem not_replaced_tool (v : Json) (i : Nat) : ¬Replaced v [.member i "tool"] := by
  rintro (⟨key, hkey, hmem⟩ | ⟨-, i', j, rest, hversion⟩)
  · rw [List.map_singleton, List.mem_singleton, Step.key?, Option.some.injEq] at hmem
    subst hmem
    revert hkey
    decide
  · cases hversion

/-- Values that agree wherever nothing is replaced agree wherever no moment or duration stands, once
the version of the tool is replaced. -/
theorem seenAt_hideToolVersion_congr {v w : Json}
    (h : ∀ p, ¬Replaced v p → w.seenAt p = v.seenAt p) {p : Position} (hp : ¬InTime p) :
    (hideToolVersion w).seenAt p = (hideToolVersion v).seenAt p := by
  have hroot : w.outline = v.outline := Option.some.inj (h [] (not_replaced_nil v))
  by_cases hversion : IsReport v ∧ InVersion p
  -- Both show the placeholder if they have a version, and that is seen at the tool.
  · obtain ⟨hv, i, j, rest, rfl⟩ := hversion
    rw [seenAt_hideToolVersion_version hv,
      seenAt_hideToolVersion_version ((isReport_congr hroot).2 hv), h _ (not_replaced_tool v i)]
  · have hw : ¬(IsReport w ∧ InVersion p) := by rwa [isReport_congr hroot]
    rw [seenAt_hideToolVersion hversion, seenAt_hideToolVersion hw]
    exact h p (not_or.2 ⟨hp, hversion⟩)

/-! ## The golden form -/

/-- Where nothing is replaced, the golden form shows what the value shows. -/
theorem seenAt_normalize {v : Json} {p : Position} (hp : ¬Replaced v p) :
    (normalize v).seenAt p = v.seenAt p := by
  obtain ⟨htime, hversion⟩ := not_or.1 hp
  rw [normalize, seenAt_hideTimes htime, seenAt_hideToolVersion hversion]

/-- Values have one golden form exactly if they agree wherever nothing is replaced. -/
theorem normalize_eq_iff {v w : Json} :
    normalize w = normalize v ↔ ∀ p, ¬Replaced v p → w.seenAt p = v.seenAt p := by
  constructor
  · intro h p hp
    have hroot : w.outline = v.outline := by
      have hw := seenAt_normalize (not_replaced_nil w)
      rw [h, seenAt_normalize (not_replaced_nil v)] at hw
      exact Option.some.inj hw.symm
    have hp' : ¬Replaced w p := by
      unfold Replaced
      rwa [isReport_congr hroot]
    rw [← seenAt_normalize hp', h, seenAt_normalize hp]
  · intro h
    exact hideTimes_congr fun p hp => seenAt_hideToolVersion_congr h hp

/-- The golden form of a golden form is the same. -/
theorem normalize_twice (v : Json) : normalize (normalize v) = normalize v := by
  rw [normalize_eq_iff]
  intro p hp
  exact seenAt_normalize hp

/-! ## The hygiene check -/

/-- What is wrong with a finding is said of the finding. -/
theorem exists_of_mem_findingErrors {name e : String} {finding : Json} {i : Nat}
    (h : e ∈ Hygiene.findingErrors name finding i) :
    ∃ rest, e = name ++ (": findings[" ++ rest) := by
  unfold Hygiene.findingErrors at h
  rcases List.mem_append.1 h with h | h
  · obtain ⟨path, -, rfl⟩ := List.mem_map.1 h
    simp only [String.append_assoc]
    exact ⟨_, rfl⟩
  · obtain ⟨code, -, rfl⟩ := List.mem_map.1 h
    simp only [String.append_assoc]
    exact ⟨_, rfl⟩

/-- What is wrong with a reason is said of the reason. -/
theorem exists_of_mem_reasonErrors {name e : String} {reason : Json} {i : Nat}
    (h : e ∈ Hygiene.reasonErrors name reason i) :
    ∃ rest, e = name ++ (": verdict.reasons[" ++ rest) := by
  unfold Hygiene.reasonErrors at h
  obtain ⟨text, -, rfl⟩ := List.mem_map.1 h
  simp only [String.append_assoc]
  exact ⟨_, rfl⟩

/-- Texts that part behind the name of a report are different. -/
theorem name_append_ne {a b : String} {i : Nat} (hi : i < a.toList.length)
    (h : a.toList[i]? ≠ b.toList[i]?) (name rest : String) : name ++ b ≠ name ++ (a ++ rest) := by
  rw [Ne, String.append_right_inj]
  rintro rfl
  apply h
  rw [String.toList_append, List.getElem?_append_left hi]

/-- The check says that a report is not normalized exactly if it is not its own golden form. -/
theorem notNormalized_mem_errors_iff {name : String} {v : Json} :
    name ++ ": timestamps or tool version are not normalized" ∈ Hygiene.errors name v ↔
      normalize v ≠ v := by
  unfold Hygiene.errors
  simp only [List.mem_append, List.mem_flatMap]
  constructor
  · rintro (((hschema | ⟨f, -, hfinding⟩) | ⟨r, -, hreason⟩) | hgolden)
    · split at hschema
      · cases hschema
      · rw [List.mem_singleton, String.append_assoc, String.append_assoc] at hschema
        exact absurd hschema (name_append_ne (i := 2) (by decide) (by decide) name _)
    · obtain ⟨rest, hrest⟩ := exists_of_mem_findingErrors hfinding
      exact absurd hrest (name_append_ne (i := 2) (by decide) (by decide) name rest)
    · obtain ⟨rest, hrest⟩ := exists_of_mem_reasonErrors hreason
      exact absurd hrest (name_append_ne (i := 2) (by decide) (by decide) name rest)
    · split at hgolden
      · cases hgolden
      · next hne => exact hne
  · intro hne
    rw [if_neg hne]
    exact .inr List.mem_cons_self

/-- The golden form is an idempotent projection that touches nothing else.  Where nothing is
replaced it shows what the value shows; another value has the same golden form exactly if it shows
the same there, so that a change of what is replaced is a change of nothing; and the hygiene check
never says of a golden form that it is not normalized. -/
theorem normalize_projection (v : Json) :
    normalize (normalize v) = normalize v ∧
      (∀ p, ¬Replaced v p → (normalize v).seenAt p = v.seenAt p) ∧
      (∀ w, normalize w = normalize v ↔ ∀ p, ¬Replaced v p → w.seenAt p = v.seenAt p) ∧
      ∀ name, name ++ ": timestamps or tool version are not normalized" ∉
        Hygiene.errors name (normalize v) := by
  refine ⟨normalize_twice v, ?_, ?_, ?_⟩
  · intro p hp
    exact seenAt_normalize hp
  · intro w
    exact normalize_eq_iff
  · intro name hmem
    exact notNormalized_mem_errors_iff.1 hmem (normalize_twice v)

/-- Two reports that differ in the version of the tool, which is not even a text in the second one,
in a duration and in a moment.  The version within a finding is not touched. -/
theorem normalize_projection_report :
    let report (toolVersion moment duration : Json) : Json := .obj
      [("findings", .arr [.obj [("data", .obj [("version", .str "x")])]]),
        ("run", .obj [("duration_ms", duration), ("started_at", moment)]),
        ("schema", .str "s"), ("tool", .obj [("version", toolVersion)]), ("verdict", .null)]
    let v := report (.str "0.1.0") (.str "2025-01-01T00:00:00Z") (.ofUInt32 12)
    let w := report (.obj [("major", .ofUInt32 1)]) .null (.arr [])
    let p : Position := [.member 0 "findings", .item 0, .member 0 "data", .member 0 "version"]
    ¬Replaced v p ∧ (normalize v).seenAt p = some (.scalar (.str "x")) ∧
      (∀ p, ¬Replaced v p → w.seenAt p = v.seenAt p) ∧ normalize w = normalize v ∧
      normalize (normalize v) = normalize v ∧ normalize v ≠ v ∧
      "r" ++ ": timestamps or tool version are not normalized" ∉
        Hygiene.errors "r" (normalize v) := by
  intro report v w p
  obtain ⟨htwice, hseen, hsame, hcheck⟩ := normalize_projection v
  have hp : ¬Replaced v p := by
    rintro (htime | ⟨-, i, j, rest, hversion⟩)
    · revert htime
      unfold InTime
      decide
    · have hkey : "findings" = "tool" := (Step.member.inj (List.cons.inj hversion).1).2
      exact absurd hkey (by decide)
  have hagree : ∀ p, ¬Replaced v p → w.seenAt p = v.seenAt p := (hsame w).1 rfl
  exact ⟨hp, hseen p hp, hagree, (hsame w).2 hagree, htwice, by decide +kernel, hcheck "r"⟩

end ParseAudit.Golden
