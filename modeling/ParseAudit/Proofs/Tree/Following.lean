import ParseAudit.Tree.Basic
/-!
# Where a path leads

Following a path is going from place to place.  `Leads` has one rule for each kind of step that
succeeds, in terms of what is at the places alone.

* `node?_concat`: the child of a directory is what is at the place beneath it;
* `follow_eq_ok_iff`: a path is followed by these rules, and by no others.
-/

namespace ParseAudit

namespace FileNode

/-- A node beneath a node is found in two stretches. -/
theorem node?_append (node : FileNode) (names names' : List FileName) :
    node.node? (names ++ names') = (node.node? names).bind (·.node? names') := by
  induction names generalizing node with
  | nil => rfl
  | cons name names ih =>
    show (node.child? name).bind (fun child => child.node? (names ++ names')) =
      ((node.child? name).bind fun child => child.node? names).bind _
    rw [Option.bind_assoc]
    exact Option.bind_congr fun child _ => ih child

theorem isDirectory_iff {node : FileNode} :
    node.isDirectory = true ↔ ∃ children, node = .directory children := by
  cases node with
  | directory children => exact iff_of_true rfl ⟨children, rfl⟩
  | file content executable => exact iff_of_false Bool.false_ne_true nofun
  | link target => exact iff_of_false Bool.false_ne_true nofun

end FileNode

namespace FileTree

variable {t : FileTree} {purpose : Purpose} {links : Nat} {place : List FileName}
  {name : FileName} {rest steps : List PathStep} {spot : Spot}

/-! ## Places -/

theorem node?_append (t : FileTree) (place names : List FileName) :
    t.node? (place ++ names) = (t.node? place).bind (·.node? names) :=
  t.root.node?_append place names

/-- The child of a directory is what is at the place beneath it. -/
theorem node?_concat {children : FileNode.Children} (h : t.node? place = some (.directory children))
    (name : FileName) : t.node? (place ++ [name]) = FileNode.Children.get? children name := by
  rw [node?_append, h]
  show (FileNode.Children.get? children name).bind some = _
  exact Option.bind_fun_some _

theorem isDirectoryAt_iff :
    t.isDirectoryAt place = true ↔ ∃ children, t.node? place = some (.directory children) := by
  unfold isDirectoryAt
  cases h : t.node? place with
  | none => simp
  | some node => simp [FileNode.isDirectory_iff]

/-! ## Steps -/

/-- The place that a link leads on from. -/
def linkStart (place : List FileName) (target : Octets) : List FileName :=
  if PathStep.isAbsolute target then [] else place

/-- Where the steps of a path lead from a place. -/
inductive Leads (t : FileTree) (purpose : Purpose) :
    Nat → List FileName → List PathStep → Spot → Prop where
  | arrived {links : Nat} {place : List FileName} {node : FileNode}
      (hnode : t.node? place = some node) : Leads t purpose links place [] (.found place node)
  /-- `.` and a slash at the end ask for a directory. -/
  | stay {links : Nat} {place : List FileName} {step : PathStep} {rest : List PathStep}
      {spot : Spot} (hstep : step = .here ∨ step = .slash)
      (hdirectory : t.isDirectoryAt place = true) (hrest : Leads t purpose links place rest spot) :
      Leads t purpose links place (step :: rest) spot
  | up {links : Nat} {place : List FileName} {rest : List PathStep} {spot : Spot}
      (hdirectory : t.isDirectoryAt place = true)
      (hrest : Leads t purpose links place.dropLast rest spot) :
      Leads t purpose links place (.up :: rest) spot
  /-- The last name may be free. -/
  | free {links : Nat} {place : List FileName} {name : FileName} {rest : List PathStep}
      (hdirectory : t.isDirectoryAt place = true)
      (hslash : ¬(purpose = .writing ∧ rest = [.slash])) (hlength : name.length ≤ maxNameLength)
      (hchild : t.node? (place ++ [name]) = none) (hlast : rest = [] ∨ rest = [.slash]) :
      Leads t purpose links place (.down name :: rest) (.free place name)
  /-- A link that is only named stands for itself. -/
  | named {links : Nat} {place : List FileName} {name : FileName} {target : Octets}
      (hpurpose : purpose = .naming) (hdirectory : t.isDirectoryAt place = true)
      (hlength : name.length ≤ maxNameLength)
      (hchild : t.node? (place ++ [name]) = some (.link target)) :
      Leads t purpose links place [.down name] (.found (place ++ [name]) (.link target))
  /-- Any other link is followed. -/
  | link {links : Nat} {place : List FileName} {name : FileName} {rest : List PathStep}
      {target : Octets} {spot : Spot} (hdirectory : t.isDirectoryAt place = true)
      (hslash : ¬(purpose = .writing ∧ rest = [.slash])) (hlength : name.length ≤ maxNameLength)
      (hchild : t.node? (place ++ [name]) = some (.link target))
      (hnaming : ¬(rest = [] ∧ purpose = .naming))
      (hrest : Leads t purpose links (linkStart place target) (PathStep.ofPath target ++ rest)
        spot) :
      Leads t purpose (links + 1) place (.down name :: rest) spot
  | down {links : Nat} {place : List FileName} {name : FileName} {rest : List PathStep}
      {node : FileNode} {spot : Spot} (hdirectory : t.isDirectoryAt place = true)
      (hslash : ¬(purpose = .writing ∧ rest = [.slash])) (hlength : name.length ≤ maxNameLength)
      (hchild : t.node? (place ++ [name]) = some node) (hlink : node.isLink = false)
      (hrest : Leads t purpose links (place ++ [name]) rest spot) :
      Leads t purpose links place (.down name :: rest) spot

theorem leads_of_follow (h : t.follow purpose links place steps = .ok spot) :
    t.Leads purpose links place steps spot := by
  fun_induction follow t purpose links place steps with
  | case1 links place node hnode =>
    cases h
    exact .arrived hnode
  | case3 links place rest hdirectory ih => exact .stay (.inl rfl) hdirectory (ih h)
  | case5 links place rest hdirectory ih => exact .stay (.inr rfl) hdirectory (ih h)
  | case7 links place rest hdirectory ih => exact .up hdirectory (ih h)
  | case11 links place name rest children hnode hslash hlength hchild hlast =>
    cases h
    exact .free (isDirectoryAt_iff.2 ⟨children, hnode⟩) hslash (Nat.le_of_not_gt hlength)
      ((node?_concat hnode name).trans hchild) hlast
  | case13 links place name rest children hnode hslash hlength target hchild hnaming =>
    cases h
    obtain ⟨rfl, hpurpose⟩ := hnaming
    exact .named hpurpose (isDirectoryAt_iff.2 ⟨children, hnode⟩) (Nat.le_of_not_gt hlength)
      ((node?_concat hnode name).trans hchild)
  | case15 place name rest children hnode hslash hlength target hchild hnaming links ih =>
    exact .link (isDirectoryAt_iff.2 ⟨children, hnode⟩) hslash (Nat.le_of_not_gt hlength)
      ((node?_concat hnode name).trans hchild) hnaming (ih h)
  | case16 links place name rest children hnode hslash hlength node hlink hchild ih =>
    have hnoLink : node.isLink = false := by
      cases node with
      | link target => exact absurd rfl (hlink target)
      | file content executable => rfl
      | directory children => rfl
    exact .down (isDirectoryAt_iff.2 ⟨children, hnode⟩) hslash (Nat.le_of_not_gt hlength)
      ((node?_concat hnode name).trans hchild) hnoLink (ih h)
  | case2 | case4 | case6 | case8 | case9 | case10 | case12 | case14 | case17 | case18 => cases h

/-- A name in a directory is followed by what is at the place beneath. -/
theorem follow_down (hdirectory : t.isDirectoryAt place = true)
    (hslash : ¬(purpose = .writing ∧ rest = [.slash])) (hlength : name.length ≤ maxNameLength)
    (links : Nat) :
    t.follow purpose links place (.down name :: rest) =
      match t.node? (place ++ [name]) with
      | none => if rest = [] ∨ rest = [.slash] then .ok (.free place name) else .error .notFound
      | some (.link target) =>
        if rest = [] ∧ purpose = .naming then .ok (.found (place ++ [name]) (.link target))
        else
          match links with
          | 0 => .error .tooManyLinks
          | links + 1 =>
            t.follow purpose links (linkStart place target) (PathStep.ofPath target ++ rest)
      | some _ => t.follow purpose links (place ++ [name]) rest := by
  obtain ⟨children, hnode⟩ := isDirectoryAt_iff.1 hdirectory
  rw [follow, hnode, node?_concat hnode]
  dsimp only
  rw [if_neg hslash, if_neg (Nat.not_lt.2 hlength)]
  rfl

theorem follow_of_leads (h : t.Leads purpose links place steps spot) :
    t.follow purpose links place steps = .ok spot := by
  induction h with
  | arrived hnode =>
    rw [follow, hnode]
  | stay hstep hdirectory hrest ih =>
    rcases hstep with rfl | rfl
    · rw [follow, if_pos hdirectory, ih]
    · rw [follow, if_pos hdirectory, ih]
  | up hdirectory hrest ih => rw [follow, if_pos hdirectory, ih]
  | free hdirectory hslash hlength hchild hlast =>
    rw [follow_down hdirectory hslash hlength, hchild]
    exact if_pos hlast
  | named hpurpose hdirectory hlength hchild =>
    have hslash : ¬(purpose = .writing ∧ ([] : List PathStep) = [.slash]) := by simp
    rw [follow_down hdirectory hslash hlength, hchild]
    exact if_pos ⟨rfl, hpurpose⟩
  | link hdirectory hslash hlength hchild hnaming hrest ih =>
    rw [follow_down hdirectory hslash hlength, hchild]
    exact (if_neg hnaming).trans ih
  | @down links place name rest node spot hdirectory hslash hlength hchild hlink hrest ih =>
    rw [follow_down hdirectory hslash hlength, hchild]
    cases node with
    | link target => cases hlink
    | file content executable => exact ih
    | directory children => exact ih

/-- A path is followed by the rules for its steps. -/
theorem follow_eq_ok_iff :
    t.follow purpose links place steps = .ok spot ↔ t.Leads purpose links place steps spot :=
  ⟨leads_of_follow, follow_of_leads⟩

end FileTree

end ParseAudit
