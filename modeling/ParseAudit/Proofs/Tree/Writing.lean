import ParseAudit.Proofs.Tree.Following
/-!
# Reading what was written

A file that was written is read back from the same path, however many links there are on the way.
Putting a file into a directory changes what is at one place only.  Elsewhere every node keeps its
face, and that is all that following a path depends on.

* `node?_put_self`, `face_node?_put`: what is at the places of a tree with a file put into it;
* `leads_put`: paths lead to where they led, and a path that could be written leads to the new file;
* `spotAt_of_modifyOctets`, `nodeAt_of_modifyOctets`, `nodeOf_of_write`, `readAt_of_modifyOctets`:
  the node that a path leads to, and what is read there, once it was written.
-/

namespace ParseAudit

namespace FileNode

/-- What a node shows on the outside: of a directory, only that it is one. -/
def face : FileNode → FileNode
  | .directory _ => emptyDirectory
  | node => node

/-- A face that is not a directory's is that of one node only. -/
theorem face_eq_iff {node other : FileNode} (h : other.isDirectory = false) :
    node.face = other ↔ node = other := by
  cases node with
  | file content executable => exact Iff.rfl
  | link target => exact Iff.rfl
  | directory children =>
    cases other with
    | directory children' => cases h
    | file content executable => exact iff_of_false nofun nofun
    | link target => exact iff_of_false nofun nofun

theorem isLink_face (node : FileNode) : node.face.isLink = node.isLink := by
  cases node <;> rfl

theorem face_eq_directory_iff {node : FileNode} :
    node.face = emptyDirectory ↔ ∃ children, node = .directory children := by
  cases node with
  | directory children => exact iff_of_true rfl ⟨children, rfl⟩
  | file content executable => exact iff_of_false nofun nofun
  | link target => exact iff_of_false nofun nofun

/-! ## Children -/

theorem get?_cons (n : FileName) (child : FileNode) (children : Children) (name : FileName) :
    Children.get? ((n, child) :: children) name =
      if name = n then some child else Children.get? children name := by
  unfold Children.get?
  rw [List.lookup_cons]
  by_cases h : name = n
  · rw [beq_iff_eq.2 h, if_pos h]
  · rw [beq_eq_false_iff_ne.2 h, if_neg h]

/-- Setting a child changes what is under its name only. -/
theorem get?_set (children : Children) (name other : FileName) (node : FileNode) :
    Children.get? (Children.set children name node) other =
      if other = name then some node else Children.get? children other := by
  induction children with
  | nil => exact get?_cons name node [] other
  | cons first children ih =>
    obtain ⟨n, child⟩ := first
    unfold Children.set
    by_cases hn : n = name
    · subst hn
      rw [if_pos rfl, get?_cons, get?_cons]
      by_cases ho : other = n
      · rw [if_pos ho, if_pos ho]
      · rw [if_neg ho, if_neg ho, if_neg ho]
    · rw [if_neg hn, get?_cons, ih, get?_cons]
      by_cases ho : other = n
      · rw [if_pos ho, if_pos ho, if_neg (ho ▸ hn)]
      · rw [if_neg ho, if_neg ho]

/-! ## Places beneath a node -/

section Update

variable {change : Children → Children} {children : Children}

/-- The directory that is updated. -/
theorem node?_update_self {root : FileNode} {place : List FileName}
    (h : root.node? place = some (.directory children)) :
    (root.update change place).node? place = some (.directory (change children)) := by
  induction place generalizing root with
  | nil =>
    cases h
    rfl
  | cons name place ih =>
    obtain ⟨child, hchild, hplace⟩ := Option.bind_eq_some_iff.1 h
    cases root with
    | file content executable => cases hchild
    | link target => cases hchild
    | directory siblings =>
      replace hchild : Children.get? siblings name = some child := hchild
      unfold update
      rw [hchild]
      dsimp only
      show (Children.get? (Children.set siblings name _) name).bind _ = _
      rw [get?_set, if_pos rfl]
      exact ih hplace

/-- A place that does not lie beneath the directory that is updated keeps its face. -/
theorem face_node?_update {root : FileNode} {place other : List FileName}
    (h : ∀ name rest, other ≠ place ++ name :: rest) :
    ((root.update change place).node? other).map face = (root.node? other).map face := by
  induction place generalizing root other with
  | nil =>
    cases other with
    | cons name rest => exact absurd rfl (h name rest)
    | nil => cases root <;> rfl
  | cons name place ih =>
    cases root with
    | file content executable => rfl
    | link target => rfl
    | directory siblings =>
      unfold update
      cases hchild : Children.get? siblings name with
      | none => rfl
      | some child =>
        dsimp only
        cases other with
        | nil => rfl
        | cons first other =>
          show ((Children.get? (Children.set siblings name _) first).bind _).map face =
            ((Children.get? siblings first).bind _).map face
          rw [get?_set]
          by_cases hfirst : first = name
          · subst hfirst
            rw [if_pos rfl, hchild]
            refine ih fun name rest heq => h name rest ?_
            rw [heq, List.cons_append]
          · rw [if_neg hfirst]

end Update

end FileNode

/-- The place of what a path leads to, or the place where it would be. -/
def Spot.place : Spot → List FileName
  | .found place _ => place
  | .free place name => place ++ [name]

namespace FileTree

variable {t : FileTree} {place : List FileName} {name : FileName} {new : FileNode}

/-! ## Putting a file somewhere -/

/-- The node that was put is at its place. -/
theorem node?_put_self (h : t.isDirectoryAt place = true) (name : FileName) (new : FileNode) :
    (t.put place name new).node? (place ++ [name]) = some new := by
  obtain ⟨children, hnode⟩ := isDirectoryAt_iff.1 h
  have hupdated : (t.put place name new).node? place =
      some (.directory (FileNode.Children.set children name new)) :=
    FileNode.node?_update_self hnode
  rw [node?_concat hupdated, FileNode.get?_set, if_pos rfl]

/-- Whatever does not lie beneath the node that was put keeps its face. -/
theorem face_node?_put {other : List FileName} (h : t.isDirectoryAt place = true)
    (hother : ¬place ++ [name] <+: other) (new : FileNode) :
    ((t.put place name new).node? other).map FileNode.face = (t.node? other).map FileNode.face := by
  by_cases hbeneath : ∃ n rest, other = place ++ n :: rest
  · obtain ⟨n, rest, rfl⟩ := hbeneath
    obtain ⟨children, hnode⟩ := isDirectoryAt_iff.1 h
    have hupdated : (t.put place name new).node? place =
        some (.directory (FileNode.Children.set children name new)) :=
      FileNode.node?_update_self hnode
    have hn : n ≠ name := by
      rintro rfl
      exact hother ⟨rest, by rw [List.append_assoc, List.singleton_append]⟩
    rw [← List.singleton_append, ← List.append_assoc, node?_append, node?_append t,
      node?_concat hupdated, node?_concat hnode, FileNode.get?_set, if_neg hn]
  · exact FileNode.face_node?_update fun n rest heq => hbeneath ⟨n, rest, heq⟩

/-- A file may be put under a name in a directory: the name is free, or it is that of a file. -/
structure MayPut (t : FileTree) (place : List FileName) (name : FileName) : Prop where
  directory : t.isDirectoryAt place = true
  file : ∀ node, t.node? (place ++ [name]) = some node → node.isFile = true

/-- Nothing lies beneath a name that a file may be put under. -/
theorem MayPut.eq_of_prefix (h : t.MayPut place name) {other : List FileName} {node : FileNode}
    (hnode : t.node? other = some node) (hinitial : place ++ [name] <+: other) :
    other = place ++ [name] := by
  obtain ⟨rest, rfl⟩ := hinitial
  rw [node?_append] at hnode
  obtain ⟨there, hthere, hrest⟩ := Option.bind_eq_some_iff.1 hnode
  have hfile := h.file there hthere
  cases rest with
  | nil => exact List.append_nil _
  | cons n rest =>
    cases there with
    | link target => cases hfile
    | directory children => cases hfile
    | file content executable => cases hrest

/-- Whatever is at a place keeps its face, unless the new node is put there. -/
theorem MayPut.exists_node?_put (h : t.MayPut place name) {other : List FileName} {node : FileNode}
    (hnode : t.node? other = some node) (new : FileNode) :
    ∃ node', (t.put place name new).node? other = some node' ∧
      (node'.face = node.face ∨ other = place ++ [name] ∧ node' = new) := by
  by_cases hother : other = place ++ [name]
  · subst hother
    exact ⟨new, node?_put_self h.directory name new, .inr ⟨rfl, rfl⟩⟩
  · have hface := face_node?_put h.directory (fun hp => hother (h.eq_of_prefix hnode hp)) new
    rw [hnode] at hface
    obtain ⟨node', hnode', hface⟩ := Option.map_eq_some_iff.1 hface
    exact ⟨node', hnode', .inl hface⟩

/-- A directory stays one. -/
theorem MayPut.isDirectoryAt_put (h : t.MayPut place name) {other : List FileName}
    (hother : t.isDirectoryAt other = true) (new : FileNode) :
    (t.put place name new).isDirectoryAt other = true := by
  obtain ⟨children, hnode⟩ := isDirectoryAt_iff.1 hother
  obtain ⟨node, hnode', hface | ⟨rfl, -⟩⟩ := h.exists_node?_put hnode new
  · obtain ⟨children', rfl⟩ := FileNode.face_eq_directory_iff.1 hface
    exact isDirectoryAt_iff.2 ⟨children', hnode'⟩
  · cases h.file _ hnode

/-- A link stays as it is. -/
theorem MayPut.node?_put_of_link (h : t.MayPut place name) {other : List FileName}
    {target : Octets} (hnode : t.node? other = some (.link target)) (new : FileNode) :
    (t.put place name new).node? other = some (.link target) := by
  obtain ⟨node, hnode', hface | ⟨rfl, -⟩⟩ := h.exists_node?_put hnode new
  · obtain rfl := (FileNode.face_eq_iff rfl).1 hface
    exact hnode'
  · cases h.file _ hnode

/-- What is not a link does not become one. -/
theorem MayPut.exists_node?_put_of_noLink (h : t.MayPut place name) {other : List FileName}
    {node : FileNode} (hnode : t.node? other = some node) (hlink : node.isLink = false)
    (hnew : new.isLink = false) :
    ∃ node', (t.put place name new).node? other = some node' ∧ node'.isLink = false := by
  obtain ⟨node', hnode', hface | ⟨-, rfl⟩⟩ := h.exists_node?_put hnode new
  · rw [← FileNode.isLink_face, ← hface, FileNode.isLink_face] at hlink
    exact ⟨node', hnode', hlink⟩
  · exact ⟨node', hnode', hnew⟩

/-! ## Following the path again -/

/-- What a path is followed to is there, and a name that is free is not. -/
theorem Leads.there {purpose : Purpose} {links : Nat} {start : List FileName}
    {steps : List PathStep} {spot : Spot} (h : t.Leads purpose links start steps spot) :
    (∀ place name, spot = .free place name →
      t.isDirectoryAt place = true ∧ t.node? (place ++ [name]) = none) ∧
      ∀ place node, spot = .found place node → purpose ≠ .naming → t.node? place = some node := by
  induction h with
  | arrived hnode =>
    refine ⟨nofun, ?_⟩
    rintro place node ⟨⟩ -
    exact hnode
  | stay _ _ _ ih => exact ih
  | up _ _ ih => exact ih
  | free hdirectory _ _ hchild _ =>
    refine ⟨?_, nofun⟩
    rintro place name ⟨⟩
    exact ⟨hdirectory, hchild⟩
  | named hpurpose _ _ _ => exact ⟨nofun, fun _ _ _ hnaming => absurd hpurpose hnaming⟩
  | link _ _ _ _ _ _ ih => exact ih
  | down _ _ _ _ _ _ ih => exact ih

/-- A name that is free is one in a directory. -/
theorem Leads.of_free {purpose : Purpose} {links : Nat} {start : List FileName}
    {steps : List PathStep} (h : t.Leads purpose links start steps (.free place name)) :
    t.isDirectoryAt place = true ∧ t.node? (place ++ [name]) = none :=
  h.there.1 place name rfl

theorem Leads.of_found {purpose : Purpose} {links : Nat} {start : List FileName}
    {steps : List PathStep} {node : FileNode}
    (h : t.Leads purpose links start steps (.found place node)) (hpurpose : purpose ≠ .naming) :
    t.node? place = some node :=
  h.there.2 place node rfl hpurpose

/-- Where a name is free, a file may be put. -/
theorem mayPut_of_free (hdirectory : t.isDirectoryAt place = true)
    (hfree : t.node? (place ++ [name]) = none) : t.MayPut place name := by
  refine ⟨hdirectory, fun node hnode => ?_⟩
  rw [hfree] at hnode
  cases hnode

/-- Where a file is, one may be put. -/
theorem mayPut_of_isFile {node : FileNode} (h : t.node? (place ++ [name]) = some node)
    (hfile : node.isFile = true) : t.MayPut place name := by
  refine ⟨?_, fun other hother => ?_⟩
  · rw [node?_append] at h
    obtain ⟨parent, hparent, hchild⟩ := Option.bind_eq_some_iff.1 h
    cases parent with
    | directory children => exact isDirectoryAt_iff.2 ⟨children, hparent⟩
    | file content executable => cases hchild
    | link target => cases hchild
  · rw [h] at hother
    cases hother
    exact hfile

/-- A path that leads somewhere still leads there, and one that could be written leads to where the
new node was put. -/
theorem leads_put (hput : t.MayPut place name) (hnew : new.isLink = false) {purpose : Purpose}
    {links : Nat} {start : List FileName} {steps : List PathStep} {spot : Spot}
    (h : t.Leads purpose links start steps spot) (hpurpose : purpose ≠ .naming)
    (hfree : ∀ there n, spot = .free there n → purpose = .writing ∧ there = place ∧ n = name) :
    ∃ node, (t.put place name new).Leads .looking links start steps (.found spot.place node) := by
  have hwriting : ∀ rest : List PathStep, ¬(Purpose.looking = .writing ∧ rest = [.slash]) :=
    fun _ h => nomatch h.1
  have hnaming : ∀ rest : List PathStep, ¬(rest = [] ∧ Purpose.looking = .naming) :=
    fun _ h => nomatch h.2
  induction h with
  | arrived hnode =>
    obtain ⟨node, hnode', -⟩ := hput.exists_node?_put hnode new
    exact ⟨node, .arrived hnode'⟩
  | stay hstep hdirectory _ ih =>
    obtain ⟨node, hrest⟩ := ih hfree
    exact ⟨node, .stay hstep (hput.isDirectoryAt_put hdirectory new) hrest⟩
  | up hdirectory _ ih =>
    obtain ⟨node, hrest⟩ := ih hfree
    exact ⟨node, .up (hput.isDirectoryAt_put hdirectory new) hrest⟩
  | @free links start n rest hdirectory hslash hlength _ hlast =>
    -- Only here is the new node met where there was nothing before.
    obtain ⟨rfl, rfl, rfl⟩ := hfree _ _ rfl
    rcases hlast with rfl | rfl
    · have hself := node?_put_self hdirectory n new
      exact ⟨new, .down (hput.isDirectoryAt_put hdirectory new) (hwriting _) hlength hself hnew
        (.arrived hself)⟩
    · exact absurd ⟨rfl, rfl⟩ hslash
  | named hname => exact absurd hname hpurpose
  | link hdirectory _ hlength hchild _ _ ih =>
    obtain ⟨node, hrest⟩ := ih hfree
    exact ⟨node, .link (hput.isDirectoryAt_put hdirectory new) (hwriting _) hlength
      (hput.node?_put_of_link hchild new) (hnaming _) hrest⟩
  | down hdirectory _ hlength hchild hlink _ ih =>
    obtain ⟨node, hrest⟩ := ih hfree
    obtain ⟨child, hchild', hlink'⟩ := hput.exists_node?_put_of_noLink hchild hlink hnew
    exact ⟨node, .down (hput.isDirectoryAt_put hdirectory new) (hwriting _) hlength hchild' hlink'
      hrest⟩

/-! ## Writing a path -/

/-- Changing the content of a file puts a file to where the path leads. -/
theorem exists_put_of_modifyOctets {t' : FileTree} {path : Octets} {change : Octets → Octets}
    (h : t.modifyOctets path change = .ok t') :
    ∃ place name old executable, t' = t.put place name (.file (change old) executable) ∧
      (t.spotToWrite path = .ok (.free place name) ∧ old = [] ∨
        t.spotToWrite path = .ok (.found (place ++ [name]) (.file old executable))) := by
  unfold modifyOctets at h
  cases hspot : t.spotToWrite path with
  | error e =>
    rw [hspot] at h
    cases h
  | ok spot =>
    rw [hspot] at h
    cases spot with
    | free place name =>
      cases h
      exact ⟨place, name, [], false, rfl, .inl ⟨rfl, rfl⟩⟩
    | found place node =>
      cases node with
      | directory children => cases h
      | link target => cases h
      | file content executable =>
        rcases List.eq_nil_or_concat place with rfl | ⟨init, name, rfl⟩
        · cases h
        · rw [List.concat_eq_append] at h
          refine ⟨init, name, content, executable, ?_, .inr (by rw [List.concat_eq_append])⟩
          simpa [bind, Except.bind, pure, Except.pure] using h.symm

/-- A path is followed if it is not empty, holds no NUL and is not too long. -/
theorem followPath_eq_ok_iff {purpose : Purpose} {path : Octets} {steps : List PathStep}
    {spot : Spot} :
    t.followPath purpose path steps = .ok spot ↔
      (path ≠ [] ∧ path.contains 0 = false ∧ path.length < pathLimit) ∧
        t.Leads purpose maxLinks (if PathStep.isAbsolute path then [] else t.directory) steps
          spot := by
  unfold followPath
  rw [← follow_eq_ok_iff]
  split
  · next hempty => simp [hempty]
  · next hempty =>
    split
    · next hnul =>
      rw [hnul]
      simp
    · next hnul =>
      split
      · next hlong => simp [Nat.not_lt.2 hlong]
      · next hshort => simp_all

/-- What can be followed for writing can be followed for looking. -/
theorem Leads.looking {links : Nat} {start : List FileName} {steps : List PathStep} {spot : Spot}
    (h : t.Leads .writing links start steps spot) : t.Leads .looking links start steps spot := by
  have hwriting : ∀ rest : List PathStep, ¬(Purpose.looking = .writing ∧ rest = [.slash]) :=
    fun _ h => nomatch h.1
  have hnaming : ∀ rest : List PathStep, ¬(rest = [] ∧ Purpose.looking = .naming) :=
    fun _ h => nomatch h.2
  induction h with
  | arrived hnode => exact .arrived hnode
  | stay hstep hdirectory _ ih => exact .stay hstep hdirectory ih
  | up hdirectory _ ih => exact .up hdirectory ih
  | free hdirectory _ hlength hchild hlast =>
    exact .free hdirectory (hwriting _) hlength hchild hlast
  | named hpurpose => cases hpurpose
  | link hdirectory _ hlength hchild _ _ ih =>
    exact .link hdirectory (hwriting _) hlength hchild (hnaming _) ih
  | down hdirectory _ hlength hchild hlink _ ih =>
    exact .down hdirectory (hwriting _) hlength hchild hlink ih

/-- Once a file was changed, it is where its path leads, with the new content in the place of the
old one; a file that was not there had none. -/
theorem spotAt_of_modifyOctets {t' : FileTree} {path : Octets} {change : Octets → Octets}
    (h : t.modifyOctets path change = .ok t') :
    ∃ place name old executable, t.MayPut place name ∧
      t' = t.put place name (.file (change old) executable) ∧
      (t.spotAt path = .ok (.free place name) ∧ old = [] ∨
        t.spotAt path = .ok (.found (place ++ [name]) (.file old executable))) ∧
      t'.spotAt path = .ok (.found (place ++ [name]) (.file (change old) executable)) := by
  obtain ⟨place, name, old, executable, rfl, hspot⟩ := exists_put_of_modifyOctets h
  obtain ⟨spot, hwrite, hmay, hplace, hspot⟩ : ∃ spot, t.spotToWrite path = .ok spot ∧
      t.MayPut place name ∧ spot.place = place ++ [name] ∧
      (spot = .free place name ∧ old = [] ∨
        spot = .found (place ++ [name]) (.file old executable)) := by
    rcases hspot with ⟨hfree, hold⟩ | hfound
    · obtain ⟨hdirectory, hnone⟩ := (followPath_eq_ok_iff.1 hfree).2.of_free
      exact ⟨_, hfree, mayPut_of_free hdirectory hnone, rfl, .inl ⟨rfl, hold⟩⟩
    · have hnode := (followPath_eq_ok_iff.1 hfound).2.of_found nofun
      exact ⟨_, hfound, mayPut_of_isFile hnode rfl, rfl, .inr rfl⟩
  obtain ⟨hpath, hleads⟩ := followPath_eq_ok_iff.1 hwrite
  have hfree : ∀ there n, spot = .free there n →
      Purpose.writing = .writing ∧ there = place ∧ n = name := by
    rintro there n rfl
    obtain ⟨rfl, rfl⟩ := List.append_singleton_inj.1 hplace
    exact ⟨rfl, rfl, rfl⟩
  have hlink : (FileNode.file (change old) executable).isLink = false := rfl
  obtain ⟨node, hnew⟩ := leads_put hmay hlink hleads nofun hfree
  rw [hplace] at hnew
  -- What the path leads to is what is at the place, which is the new file.
  have hnode := hnew.of_found nofun
  rw [node?_put_self hmay.directory] at hnode
  cases hnode
  refine ⟨place, name, old, executable, hmay, rfl, ?_, followPath_eq_ok_iff.2 ⟨hpath, hnew⟩⟩
  have hbefore : t.spotAt path = .ok spot := followPath_eq_ok_iff.2 ⟨hpath, hleads.looking⟩
  rcases hspot with ⟨rfl, hold⟩ | rfl
  · exact .inl ⟨hbefore, hold⟩
  · exact .inr hbefore

/-- Once a file was changed, its path leads to a node with the new content. -/
theorem nodeAt_of_modifyOctets {t' : FileTree} {path : Octets} {change : Octets → Octets}
    (h : t.modifyOctets path change = .ok t') :
    ∃ old executable, t'.nodeAt path = .ok (.file (change old) executable) ∧
      (t.nodeAt path = .ok (.file old executable) ∨
        t.nodeAt path = .error .notFound ∧ old = []) := by
  obtain ⟨_, _, old, executable, -, -, hbefore, hafter⟩ := spotAt_of_modifyOctets h
  unfold nodeAt
  rw [hafter]
  refine ⟨old, executable, rfl, ?_⟩
  rcases hbefore with ⟨hfree, hold⟩ | hfound
  · rw [hfree]
    exact .inr ⟨rfl, hold⟩
  · rw [hfound]
    exact .inl rfl

/-- Once it was written, a path leads to a file with what was written. -/
theorem nodeOf_of_write {t' : FileTree} {path : String} {content : Octets}
    (h : t.write path content = .ok t') :
    ∃ executable, t'.nodeOf path = .ok (.file content executable) := by
  obtain ⟨_, executable, hnode, -⟩ := nodeAt_of_modifyOctets h
  exact ⟨executable, hnode⟩

/-- Once a file was changed, its new content is read from its path. -/
theorem readAt_of_modifyOctets {t' : FileTree} {path : Octets} {change : Octets → Octets}
    (h : t.modifyOctets path change = .ok t') :
    ∃ old, (t.readAt path = .ok old ∨ t.readAt path = .error .notFound ∧ old = []) ∧
      t'.readAt path = .ok (change old) := by
  obtain ⟨old, executable, hnew, hold⟩ := nodeAt_of_modifyOctets h
  unfold readAt
  rw [hnew]
  refine ⟨old, ?_, rfl⟩
  rcases hold with hold | ⟨hold, rfl⟩
  · rw [hold]
    exact .inl rfl
  · rw [hold]
    exact .inr ⟨rfl, rfl⟩

end FileTree

end ParseAudit
