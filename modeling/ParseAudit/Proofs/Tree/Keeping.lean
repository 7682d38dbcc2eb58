import ParseAudit.Proofs.Action
import ParseAudit.Proofs.Tree.Writing
/-!
# What writing leaves alone

Making directories and writing files does not turn any path away from where it led before, and the
content of a file changes only if a path that is written leads to it.

* `KeepsBut`: one tree keeps all of another one but what some paths lead to;
* `keepsBut_put`: what holds for all changes, since each of them puts something somewhere;
* `keepsBut_makeDirectories`, `keepsBut_of_modifyOctets`: the changes;
* `KeepsBut.readText`: a text that was kept is still read;
* `WritesOnly`: actions that write some paths and nothing else, one after another.
-/

namespace ParseAudit

namespace FileTree

/-- A path leads to a place, links followed. -/
def LeadsTo (t : FileTree) (path : String) (place : List FileName) : Prop :=
  ∃ node, t.spot path = .ok (.found place node)

/-- Two paths lead to one and the same place. -/
def SamePlace (t : FileTree) (path path' : String) : Prop :=
  ∃ place, t.LeadsTo path place ∧ t.LeadsTo path' place

/-- Where a path leads in one tree, it leads in another one.  What is there keeps its face, unless a
path that was written leads there as well. -/
def KeepsBut (t : FileTree) (written : List String) (t' : FileTree) : Prop :=
  ∀ path place node, t.spot path = .ok (.found place node) →
    ∃ node', t'.spot path = .ok (.found place node') ∧
      (node'.face = node.face ∨ ∃ other ∈ written, t'.LeadsTo other place)

variable {t t' t'' : FileTree} {written written' : List String}

theorem KeepsBut.leadsTo (h : t.KeepsBut written t') {path : String} {place : List FileName}
    (hpath : t.LeadsTo path place) : t'.LeadsTo path place := by
  obtain ⟨node, hspot⟩ := hpath
  obtain ⟨node', hspot', -⟩ := h path place node hspot
  exact ⟨node', hspot'⟩

theorem KeepsBut.refl (t : FileTree) : t.KeepsBut [] t :=
  fun _ _ node hspot => ⟨node, hspot, .inl rfl⟩

theorem KeepsBut.trans (h : t.KeepsBut written t') (h' : t'.KeepsBut written' t'') :
    t.KeepsBut (written ++ written') t'' := by
  intro path place node hspot
  obtain ⟨mid, hmid, hkept⟩ := h path place node hspot
  obtain ⟨last, hlast, hkept'⟩ := h' path place mid hmid
  refine ⟨last, hlast, ?_⟩
  rcases hkept with hface | ⟨other, hother, hleads⟩
  · rcases hkept' with hface' | ⟨other, hother, hleads⟩
    · exact .inl (hface'.trans hface)
    · exact .inr ⟨other, List.mem_append_right _ hother, hleads⟩
  · exact .inr ⟨other, List.mem_append_left _ hother, h'.leadsTo hleads⟩

/-! ## Reading -/

theorem nodeOf_of_spot {path : String} {place : List FileName} {node : FileNode}
    (h : t.spot path = .ok (.found place node)) : t.nodeOf path = .ok node := by
  unfold nodeOf nodeAt
  rw [show t.spotAt _ = _ from h]

/-- Where a text is read, there is a file. -/
theorem exists_spot_of_readText {path text : String} (h : t.readText path = .ok text) :
    ∃ place content executable, t.spot path = .ok (.found place (.file content executable)) := by
  unfold readText readTextAt readAt nodeAt at h
  unfold spot
  cases hspot : t.spotAt (Octets.ofText path) with
  | error e =>
    rw [hspot] at h
    cases h
  | ok spot =>
    rw [hspot] at h
    cases spot with
    | free place name => cases h
    | found place node =>
      cases node with
      | directory children => cases h
      | link target => cases h
      | file content executable => exact ⟨place, content, executable, rfl⟩

/-- A text is still read if no path that was written leads to its file. -/
theorem KeepsBut.readText (h : t.KeepsBut written t') {path text : String}
    (htext : t.readText path = .ok text)
    (hother : ∀ other ∈ written, ¬t'.SamePlace path other) : t'.readText path = .ok text := by
  obtain ⟨place, content, executable, hspot⟩ := exists_spot_of_readText htext
  obtain ⟨node, hspot', hface | ⟨other, hmem, hleads⟩⟩ := h path place _ hspot
  · obtain rfl : node = .file content executable := (FileNode.face_eq_iff rfl).1 hface
    have hnode : t'.nodeAt (Octets.ofText path) = t.nodeAt (Octets.ofText path) :=
      (nodeOf_of_spot hspot').trans (nodeOf_of_spot hspot).symm
    unfold FileTree.readText readTextAt readAt at htext ⊢
    rw [hnode]
    exact htext
  · exact absurd ⟨place, ⟨node, hspot'⟩, hleads⟩ (hother other hmem)

/-! ## Changes -/

section Changes

variable {place : List FileName} {name : FileName} {new : FileNode}

/-- Putting something somewhere keeps all the rest, and all there is if the name was free. -/
theorem keepsBut_put (hput : t.MayPut place name) (hnew : new.isLink = false)
    (hplace : t.node? (place ++ [name]) = none ∨
      ∃ path ∈ written, (t.put place name new).LeadsTo path (place ++ [name])) :
    t.KeepsBut written (t.put place name new) := by
  intro path there node hspot
  obtain ⟨hpath, hleads⟩ := followPath_eq_ok_iff.1 hspot
  have hnode : t.node? there = some node := hleads.of_found nofun
  obtain ⟨node', hleads'⟩ := leads_put hput hnew hleads nofun nofun
  have hnode' := hleads'.of_found nofun
  refine ⟨node', followPath_eq_ok_iff.2 ⟨hpath, hleads'⟩, ?_⟩
  obtain ⟨kept, hkept, hface | ⟨rfl, -⟩⟩ := hput.exists_node?_put hnode new
  · cases hnode'.symm.trans hkept
    exact .inl hface
  · rcases hplace with hfree | hwritten
    · rw [hnode] at hfree
      cases hfree
    · exact .inr hwritten

theorem keepsBut_of_makeDirectory {path : Octets} (h : t.makeDirectory path = .ok t') :
    t.KeepsBut [] t' := by
  unfold makeDirectory at h
  cases hspot : t.spotNamed path with
  | error e =>
    rw [hspot] at h
    cases h
  | ok spot =>
    rw [hspot] at h
    cases spot with
    | found place node => cases h
    | free place name =>
      cases h
      obtain ⟨hdirectory, hfree⟩ := (followPath_eq_ok_iff.1 hspot).2.of_free
      exact keepsBut_put (mayPut_of_free hdirectory hfree) rfl (.inl hfree)

/-- Directories are made one by one, whether the last one can be made or not. -/
theorem keepsBut_makeAll (paths : List String) : t.KeepsBut [] (t.makeAll paths).1 := by
  induction paths with
  | nil => exact .refl t
  | cons path parents ih =>
    unfold makeAll
    dsimp only
    split
    · exact .refl t
    · split
      · next hmade => exact keepsBut_of_makeDirectory hmade
      -- The parents have been made when the directory is tried again.
      · split
        · next hparents =>
          rw [hparents] at ih
          exact ih
        · next hparents =>
          rw [hparents] at ih
          split
          · next hmade => exact ih.trans (keepsBut_of_makeDirectory hmade)
          · exact ih
      · exact .refl t

theorem keepsBut_makeDirectories (path : String) : t.KeepsBut [] (t.makeDirectories path).1 :=
  keepsBut_makeAll _

theorem keepsBut_of_modifyOctets {path : String} {change : Octets → Octets}
    (h : t.modifyOctets (Octets.ofText path) change = .ok t') : t.KeepsBut [path] t' := by
  obtain ⟨place, name, old, executable, hput, rfl, -, hspot⟩ := spotAt_of_modifyOctets h
  exact keepsBut_put hput rfl (.inr ⟨path, List.mem_singleton_self path, _, hspot⟩)

end Changes

end FileTree

/-! ## Actions -/

namespace Action

variable {α β : Type} {written written' : List String}

/-- Whenever an action succeeds, it keeps everything but what it writes. -/
def WritesOnly (x : Action α) (written : List String) : Prop :=
  ∀ tree a tree', x.Gives tree a tree' → tree.KeepsBut written tree'

theorem Quiet.writesOnly {x : Action Unit} (hx : x.Quiet) : x.WritesOnly [] := by
  intro tree a tree' h
  obtain ⟨-, rfl⟩ := (hx tree).unique h
  exact .refl tree

theorem WritesOnly.bind {x : Action α} {f : α → Action β} (hx : x.WritesOnly written)
    (hf : ∀ a, (f a).WritesOnly written') : (x >>= f).WritesOnly (written ++ written') := by
  intro tree b tree' h
  obtain ⟨a, mid, hfirst, hsecond⟩ := gives_bind_iff.1 h
  exact (hx tree a mid hfirst).trans (hf a mid b tree' hsecond)

theorem WritesOnly.within {x : Action α} (hx : x.WritesOnly written) (context : String) :
    (x.within context).WritesOnly written :=
  fun tree a tree' h => hx tree a tree' (gives_within_iff.1 h)

/-- A file is changed, or made if it is not there. -/
theorem writesOnly_modify (context path : String) (change : Octets → Octets) :
    (Action.change context (·.modifyOctets (Octets.ofText path) change)).WritesOnly [path] :=
  fun _ _ _ h => FileTree.keepsBut_of_modifyOctets (gives_change_iff.1 h)

theorem writesOnly_makeParent (path : String) : (makeParent path).WritesOnly [] := by
  unfold makeParent
  split
  · next parent _ =>
    split
    · exact quiet_pure.writesOnly
    · intro tree a tree' h
      exact h.left ▸ FileTree.keepsBut_makeDirectories parent
  · exact quiet_pure.writesOnly

theorem writesOnly_writeFile (what path content : String) :
    (writeFile what path content).WritesOnly [path] :=
  (writesOnly_makeParent path).bind fun _ => writesOnly_modify _ path _

end Action

end ParseAudit
