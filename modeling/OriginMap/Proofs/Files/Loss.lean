import OriginMap.Proofs.Files.Footprint

/-!
# Trees that lose files

Where files are only removed, under permitted names of one folder, whatever stands for something else
afterwards stands for nothing. What can be read then could be read before, and what is gone stays gone.
-/

namespace OriginMap.Files.Tree

variable {root : Path} {permitted : String → Prop} {tree middle after : Tree} {number : ℕ}
  {folder : Folder} {name : String}

/-- A tree comes from another one with the same folders by the loss of files under permitted names of
the folder at a path. -/
structure LosesAt (root : Path) (permitted : String → Prop) (tree after : Tree) : Prop
    extends AlteredAt root permitted tree after where
  /-- What stands for something else stands for nothing. -/
  gone : ∀ number name, after.node? number name ≠ tree.node? number name →
    after.node? number name = none

/-- A tree loses nothing while nothing is done. -/
theorem LosesAt.refl (root : Path) (permitted : String → Prop) (tree : Tree) :
    LosesAt root permitted tree tree :=
  ⟨.refl root permitted tree, fun _ _ hne => absurd rfl hne⟩

/-- A tree may lose files twice. -/
theorem LosesAt.trans (h : LosesAt root permitted tree middle)
    (h' : LosesAt root permitted middle after) : LosesAt root permitted tree after := by
  refine ⟨h.toAlteredAt.trans h'.toAlteredAt, fun number name hne => ?_⟩
  by_cases hlater : after.node? number name = middle.node? number name
  · rw [hlater] at hne ⊢
    exact h.gone number name hne
  · exact h'.gone number name hlater

/-- More names may be permitted. -/
theorem LosesAt.mono (h : LosesAt root permitted tree after) {more : String → Prop}
    (hmore : ∀ name, permitted name → more name) : LosesAt root more tree after := by
  refine ⟨⟨h.folders, fun number name hne => ?_⟩, h.gone⟩
  obtain ⟨hname, hholds⟩ := h.altered number name hne
  exact ⟨hmore name hname, hholds⟩

/-- A file that is removed is lost. -/
theorem losesAt_of_remove (hname : Path.isName name = true) (hpermitted : permitted name)
    (h : tree.remove (root.child name) = .ok after) : LosesAt root permitted tree after := by
  refine ⟨alteredAt_of_remove hname hpermitted h, fun other key hne => ?_⟩
  obtain ⟨number, folder, hholds⟩ := holds_of_remove h
  obtain ⟨-, ⟨contents, hnode⟩, rfl⟩ := (hholds.remove_child_eq_ok hname).mp h
  obtain ⟨rfl, rfl⟩ := node?_change_eq
    (fun folder key hkey => by rw [Folder.node?_erase, if_neg hkey]) hne
  rw [(hholds.erase hnode).node?_eq, Folder.node?_erase, if_pos rfl]

/-- What a name stands for after a loss it stood for before. -/
theorem LosesAt.node? (h : LosesAt root permitted tree after) {node : Node}
    (hnode : after.node? number name = some node) : tree.node? number name = some node := by
  by_contra hne
  have hgone := h.gone number name fun hsame => hne (hsame.symm.trans hnode)
  rw [hgone] at hnode
  cases hnode

/-- A file that can be read after a loss could be read before. -/
theorem LosesAt.read_child (h : LosesAt root permitted tree after) (hname : Path.isName name = true)
    {contents : Bytes} (hread : after.read (root.child name) = .ok contents) :
    tree.read (root.child name) = .ok contents := by
  obtain ⟨number, folder, hafter⟩ := holds_of_walk_child hname (walk_of_read hread)
  obtain ⟨before, hbefore⟩ := h.folders.symm.holds hafter
  obtain ⟨hfits, hnode⟩ := (hafter.read_child_eq_ok hname).mp hread
  rw [← hafter.node?_eq] at hnode
  apply (hbefore.read_child_eq_ok hname).mpr
  exact ⟨hfits, by rw [← hbefore.node?_eq, h.node? hnode]⟩

/-- What is missing stays missing where files are lost. -/
theorem LosesAt.walk_child_missing (h : LosesAt root permitted tree after)
    (hholds : tree.Holds root number folder) (hname : Path.isName name = true)
    (hwalk : tree.walk (root.child name) = .error .missing) :
    after.walk (root.child name) = .error .missing := by
  obtain ⟨changed, hafter⟩ := h.folders.holds hholds
  obtain ⟨hfits, hnode⟩ := (hholds.walk_child_eq_missing hname).mp hwalk
  apply (hafter.walk_child_eq_missing hname).mpr
  refine ⟨hfits, Option.eq_none_iff_forall_ne_some.mpr fun node hsome => ?_⟩
  rw [← hafter.node?_eq] at hsome
  rw [← hholds.node?_eq, h.node? hsome] at hnode
  cases hnode

/-- A name that is listed after a loss was listed before. -/
theorem LosesAt.mem_list (h : LosesAt root permitted tree after) {names : List String}
    (hlist : after.list root = .ok names) (hname : name ∈ names) :
    ∃ before, tree.list root = .ok before ∧ name ∈ before := by
  cases hfolder : after.folderAt root with
  | error trouble => simp [list, hfolder, Except.map] at hlist
  | ok folder =>
    obtain ⟨number, hwalk, hafter⟩ := Holds.of_folderAt hfolder
    obtain ⟨found, hfound⟩ := h.folders.symm.holds hafter
    obtain rfl := hafter.of_list hlist
    have hbefore : tree.list root = .ok (found.nodes.map Prod.fst) := by
      rw [list, hfound.folderAt (h.folders.symm.walk hwalk)]
      rfl
    refine ⟨_, hbefore, ?_⟩
    rw [Folder.mem_names, ← hafter.node?_eq, Option.ne_none_iff_exists'] at hname
    obtain ⟨node, hnode⟩ := hname
    rw [Folder.mem_names, ← hfound.node?_eq, h.node? hnode]
    simp

end OriginMap.Files.Tree
