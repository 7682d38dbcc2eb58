import ParseAudit.Proofs.Tree.Keeping
/-!
# Paths of one name

The path `/` leads to the root.  A path that is one name, with or without a slash in front, leads to
what the directory that it starts from holds under this name.

* `spot_root`: the root;
* `IsName`: a path that is one name;
* `IsName.spot_eq_found`, `IsName.spot_eq_free`: what such a path leads to;
* `IsName.not_samePlace`: what two names lead to are two places;
* `IsName.write_eq_put`, `IsName.write_eq_replace`: what writing to it does;
* `IsName.makeParent_gives`, `IsName.writeFile_gives`: the directory that it lies in need not be
  made.
-/

namespace ParseAudit

namespace FileTree

/-! ## The root -/

theorem followPath_root (t : FileTree) (purpose : Purpose) :
    t.followPath purpose (Octets.ofText "/") [] = .ok (.found [] t.root) :=
  followPath_eq_ok_iff.2 ⟨by decide +kernel, .arrived rfl⟩

/-- The root of a tree is found without a step. -/
theorem spot_root (t : FileTree) : t.spot "/" = .ok (.found [] t.root) := by
  have hsteps : PathStep.ofPath (Octets.ofText "/") = [] := by decide +kernel
  unfold spot spotAt
  rw [hsteps]
  exact t.followPath_root .looking

theorem isDirectory_root (t : FileTree) : t.isDirectory "/" = t.root.isDirectory := by
  unfold isDirectory nodeOf nodeAt
  rw [show t.spotAt (Octets.ofText "/") = _ from spot_root t]
  rfl

theorem canonical_root (t : FileTree) : t.canonical "/" = some "/" := by
  unfold canonical
  rw [spot_root]
  rfl

/-- The root need not be made. -/
theorem makeDirectories_root {t : FileTree} (h : t.root.isDirectory = true) :
    t.makeDirectories "/" = (t, .ok ()) := by
  have hancestors : PathText.ancestors "/" = ["/"] := by decide +kernel
  have hsteps : PathStep.withoutSlash (PathStep.ofPath (Octets.ofText "/")) = [] := by
    decide +kernel
  have hmake : t.makeDirectory (Octets.ofText "/") = .error .alreadyExists := by
    unfold makeDirectory spotNamed
    rw [hsteps, followPath_root]
    rfl
  unfold makeDirectories
  rw [hancestors, makeAll, hmake]
  simp [isDirectory_root, h]

theorem readText_eq_error {t : FileTree} {path : String} {e : FileError}
    (h : t.nodeOf path = .error e) : t.readText path = .error e := by
  unfold readText readTextAt readAt
  rw [show t.nodeAt (Octets.ofText path) = _ from h]
  rfl

/-! ## One name -/

/-- The directory that a path starts from. -/
def startOf (t : FileTree) (path : String) : List FileName :=
  if PathStep.isAbsolute (Octets.ofText path) then [] else t.directory

theorem startOf_eq_nil (t : FileTree) (path : String)
    (h : PathStep.isAbsolute (Octets.ofText path) = true) : t.startOf path = [] :=
  if_pos h

/-- A path that is one name, with or without a slash in front. -/
structure IsName (path : String) (name : FileName) : Prop where
  steps : PathStep.ofPath (Octets.ofText path) = [.down name]
  plain : Octets.ofText path ≠ [] ∧ (Octets.ofText path).contains 0 = false ∧
    (Octets.ofText path).length < pathLimit
  short : name.length ≤ maxNameLength
  parent : PathText.parent? path = some "/" ∨ PathText.parent? path = some ""

theorem isName_iff {path : String} {name : FileName} :
    IsName path name ↔ PathStep.ofPath (Octets.ofText path) = [.down name] ∧
      (Octets.ofText path ≠ [] ∧ (Octets.ofText path).contains 0 = false ∧
        (Octets.ofText path).length < pathLimit) ∧ name.length ≤ maxNameLength ∧
      (PathText.parent? path = some "/" ∨ PathText.parent? path = some "") :=
  ⟨fun h => ⟨h.steps, h.plain, h.short, h.parent⟩, fun h => ⟨h.1, h.2.1, h.2.2.1, h.2.2.2⟩⟩

instance (path : String) (name : FileName) : Decidable (IsName path name) :=
  decidable_of_iff' _ isName_iff

namespace IsName

variable {t : FileTree} {path : String} {name : FileName} {place : List FileName}

theorem followPath_eq (h : IsName path name) (hplace : t.startOf path = place) {purpose : Purpose}
    {spot : Spot} (hleads : t.Leads purpose maxLinks place [.down name] spot) :
    t.followPath purpose (Octets.ofText path) (PathStep.ofPath (Octets.ofText path)) =
      .ok spot := by
  subst hplace
  rw [h.steps]
  exact followPath_eq_ok_iff.2 ⟨h.plain, hleads⟩

theorem leads_found (h : IsName path name) (hdirectory : t.isDirectoryAt place = true)
    {node : FileNode} (hnode : t.node? (place ++ [name]) = some node)
    (hlink : node.isLink = false) (purpose : Purpose) :
    t.Leads purpose maxLinks place [.down name] (.found (place ++ [name]) node) :=
  .down hdirectory nofun h.short hnode hlink (.arrived hnode)

theorem leads_free (h : IsName path name) (hdirectory : t.isDirectoryAt place = true)
    (hnone : t.node? (place ++ [name]) = none) (purpose : Purpose) :
    t.Leads purpose maxLinks place [.down name] (.free place name) :=
  .free hdirectory nofun h.short hnone (.inl rfl)

/-- What the directory holds is found, unless it is a link. -/
theorem spot_eq_found (h : IsName path name) (hplace : t.startOf path = place)
    (hdirectory : t.isDirectoryAt place = true) {node : FileNode}
    (hnode : t.node? (place ++ [name]) = some node) (hlink : node.isLink = false) :
    t.spot path = .ok (.found (place ++ [name]) node) :=
  h.followPath_eq hplace (h.leads_found hdirectory hnode hlink .looking)

theorem spot_eq_free (h : IsName path name) (hplace : t.startOf path = place)
    (hdirectory : t.isDirectoryAt place = true) (hnone : t.node? (place ++ [name]) = none) :
    t.spot path = .ok (.free place name) :=
  h.followPath_eq hplace (h.leads_free hdirectory hnone .looking)

/-- Different names do not lead to the same place, unless there are links. -/
theorem not_samePlace {path' : String} {name' : FileName} {place' : List FileName}
    {node node' : FileNode} (h : IsName path name) (h' : IsName path' name')
    (hname : place ++ [name] ≠ place' ++ [name'])
    (hplace : t.startOf path = place) (hdirectory : t.isDirectoryAt place = true)
    (hnode : t.node? (place ++ [name]) = some node) (hlink : node.isLink = false)
    (hplace' : t.startOf path' = place') (hdirectory' : t.isDirectoryAt place' = true)
    (hnode' : t.node? (place' ++ [name']) = some node') (hlink' : node'.isLink = false) :
    ¬t.SamePlace path path' := by
  have hspot := h.spot_eq_found hplace hdirectory hnode hlink
  have hspot' := h'.spot_eq_found hplace' hdirectory' hnode' hlink'
  rintro ⟨_, ⟨_, hleads⟩, ⟨_, hleads'⟩⟩
  have hthere := (Spot.found.inj (Except.ok.inj (hspot.symm.trans hleads))).1
  have hthere' := (Spot.found.inj (Except.ok.inj (hspot'.symm.trans hleads'))).1
  exact hname (hthere.trans hthere'.symm)

theorem nodeOf_eq_found (h : IsName path name) (hplace : t.startOf path = place)
    (hdirectory : t.isDirectoryAt place = true) {node : FileNode}
    (hnode : t.node? (place ++ [name]) = some node) (hlink : node.isLink = false) :
    t.nodeOf path = .ok node := by
  unfold nodeOf nodeAt
  rw [show t.spotAt (Octets.ofText path) = _ from h.spot_eq_found hplace hdirectory hnode hlink]

theorem nodeOf_eq_notFound (h : IsName path name) (hplace : t.startOf path = place)
    (hdirectory : t.isDirectoryAt place = true) (hnone : t.node? (place ++ [name]) = none) :
    t.nodeOf path = .error .notFound := by
  unfold nodeOf nodeAt
  rw [show t.spotAt (Octets.ofText path) = _ from h.spot_eq_free hplace hdirectory hnone]

/-- A file that is not there is made. -/
theorem write_eq_put (h : IsName path name) (hplace : t.startOf path = place)
    (hdirectory : t.isDirectoryAt place = true) (hnone : t.node? (place ++ [name]) = none)
    (content : Octets) :
    t.write path content = .ok (t.put place name (.file content false)) := by
  unfold write modifyOctets spotToWrite
  rw [h.followPath_eq hplace (h.leads_free hdirectory hnone .writing)]
  rfl

/-- A file that is there has its content replaced. -/
theorem write_eq_replace (h : IsName path name) (hplace : t.startOf path = place)
    (hdirectory : t.isDirectoryAt place = true) {old : Octets} {executable : Bool}
    (hnode : t.node? (place ++ [name]) = some (.file old executable)) (content : Octets) :
    t.write path content = .ok (t.put place name (.file content executable)) := by
  unfold write modifyOctets spotToWrite
  rw [h.followPath_eq hplace (h.leads_found hdirectory hnode rfl .writing)]
  simp [bind, Except.bind, pure, Except.pure]

theorem makeParent_gives (h : IsName path name) (hroot : t.root.isDirectory = true) :
    (Action.makeParent path).Gives t () t := by
  unfold Action.makeParent
  rcases h.parent with hparent | hparent
  · rw [hparent]
    have hmade := makeDirectories_root hroot
    constructor
    · show Except.within _ Cause.file (t.makeDirectories "/").2 = _
      rw [hmade]
      rfl
    · show (t.makeDirectories "/").1 = t
      rw [hmade]
  · rw [hparent]
    exact Action.gives_pure_iff.2 ⟨rfl, rfl⟩

theorem writeFile_gives (h : IsName path name) (hroot : t.root.isDirectory = true)
    {content : String} {t' : FileTree} (hwrite : t.write path (Octets.ofText content) = .ok t')
    (what : String) : (Action.writeFile what path content).Gives t () t' :=
  Action.gives_bind_iff.2 ⟨(), t, h.makeParent_gives hroot, Action.gives_change_iff.2 hwrite⟩

end IsName

end FileTree

end ParseAudit
