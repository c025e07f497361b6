import Mathlib.Data.List.Perm.Basic
import OriginMap.Proofs.Files.Directory

/-!
# Listing in another order

The names in a folder come in some order when they are listed. Trees with the same files in which folders
are listed in different orders cannot be told apart otherwise: every path leads to the same place in both,
and a change to a folder that does not look at the order is the same change in both.
-/

namespace OriginMap.Files

/-! ## Folders -/

/-- Among items of different names, one is looked up in any order. -/
theorem lookup_of_perm {nodes others : List (String × Node)} (h : nodes.Perm others)
    (hnames : (nodes.map Prod.fst).Nodup) (name : String) :
    others.lookup name = nodes.lookup name := by
  induction h with
  | nil => rfl
  | cons item _ ih =>
    obtain ⟨key, node⟩ := item
    rw [List.lookup_cons, List.lookup_cons, ih (List.nodup_cons.mp hnames).2]
  | swap item first rest =>
    obtain ⟨key, node⟩ := item
    obtain ⟨other, second⟩ := first
    have hne : other ≠ key := by
      rintro rfl
      simp at hnames
    by_cases hother : name = other
    · subst hother
      simp only [List.lookup_cons, beq_false_of_ne hne, BEq.rfl]
    · simp only [List.lookup_cons, beq_false_of_ne hother]
  | trans hfirst _ ih ih' =>
    exact (ih' ((hfirst.map Prod.fst).nodup_iff.mp hnames)).trans (ih hnames)

namespace Folder

/-- The same folder in another order; no name comes twice in it. -/
structure Reordered (folder other : Folder) : Prop where
  /-- Both are below the same folder. -/
  above : other.above = folder.above
  /-- They have the same things under the same names. -/
  nodes : folder.nodes.Perm other.nodes
  /-- No name comes twice. -/
  names : (folder.nodes.map Prod.fst).Nodup

variable {folder other : Folder}

/-- Names stand for the same in any order. -/
theorem Reordered.node?_eq (h : folder.Reordered other) (name : String) :
    other.node? name = folder.node? name :=
  lookup_of_perm h.nodes h.names name

/-- A name may be erased in any order. -/
theorem Reordered.erase (h : folder.Reordered other) (name : String) :
    (folder.erase name).Reordered (other.erase name) :=
  ⟨h.above, h.nodes.filter _, h.names.sublist (List.filter_sublist.map Prod.fst)⟩

end Folder

/-! ## Trees -/

namespace Tree

/-- The same tree with folders in other orders. -/
structure Reordered (tree other : Tree) : Prop where
  /-- The working directory is the same. -/
  here : other.here = tree.here
  /-- There are the same folders, each in some order. -/
  folders : ∀ number : ℕ, Option.Rel Folder.Reordered tree.folders[number]? other.folders[number]?

variable {tree other : Tree} {path root : Path} {number : ℕ} {folder : Folder}

/-- A folder of one tree is a folder of the other, in some order. -/
theorem Reordered.exists_folder (h : tree.Reordered other) (hfolder : tree.folders[number]? = some folder) :
    ∃ changed, other.folders[number]? = some changed ∧ folder.Reordered changed := by
  have hfolders := h.folders number
  rw [hfolder] at hfolders
  cases hother : other.folders[number]? with
  | none =>
    rw [hother] at hfolders
    cases hfolders
  | some changed =>
    rw [hother] at hfolders
    cases hfolders with
    | some hsame => exact ⟨changed, rfl, hsame⟩

/-- A number of no folder is one of none in the other tree. -/
theorem Reordered.folders_eq_none (h : tree.Reordered other) (hnone : tree.folders[number]? = none) :
    other.folders[number]? = none := by
  have hfolders := h.folders number
  rw [hnone] at hfolders
  cases hother : other.folders[number]? with
  | none => rfl
  | some changed =>
    rw [hother] at hfolders
    cases hfolders

/-- A piece of a path leads to the same place in any order. -/
theorem Reordered.follow_eq (h : tree.Reordered other) : other.follow = tree.follow := by
  funext node piece
  cases node with
  | file contents => rfl
  | folder number =>
    cases hfolder : tree.folders[number]? with
    | none => simp only [follow, hfolder, h.folders_eq_none hfolder]
    | some folder =>
      obtain ⟨changed, hchanged, hsame⟩ := h.exists_folder hfolder
      simp only [follow, hfolder, hchanged, hsame.above, hsame.node?_eq]

/-- A path leads to the same place in any order. -/
theorem Reordered.walk_eq (h : tree.Reordered other) (path : Path) : other.walk path = tree.walk path := by
  unfold walk reach
  rw [h.follow_eq, h.here]

/-- Files are read alike in any order. -/
theorem Reordered.read_eq (h : tree.Reordered other) (path : Path) : other.read path = tree.read path := by
  unfold read
  rw [h.walk_eq]

/-- A folder where the names below a path are sought is there in both trees, in some order. -/
theorem Reordered.exists_holds (h : tree.Reordered other) (hholds : tree.Holds root number folder) :
    ∃ changed, other.Holds root number changed ∧ folder.Reordered changed := by
  obtain ⟨changed, hchanged, hsame⟩ := h.exists_folder hholds.folder
  refine ⟨changed, ⟨?_, hchanged⟩, hsame⟩
  rw [reach, h.follow_eq, h.here]
  exact hholds.reach

/-- The names in a folder are listed in some order, or not in either tree. -/
theorem Reordered.list (h : tree.Reordered other) (path : Path) :
    (∃ trouble, tree.list path = .error trouble ∧ other.list path = .error trouble) ∨
      ∃ names names', tree.list path = .ok names ∧ other.list path = .ok names' ∧ names.Perm names' := by
  unfold Tree.list folderAt
  rw [h.walk_eq]
  rcases tree.walk path with trouble | contents | number
  · exact Or.inl ⟨trouble, rfl, rfl⟩
  · exact Or.inl ⟨.refused, rfl, rfl⟩
  · cases hfolder : tree.folders[number]? with
    | none =>
      simp only [h.folders_eq_none hfolder, hfolder, Option.elim_none]
      exact Or.inl ⟨.missing, rfl, rfl⟩
    | some folder =>
      obtain ⟨changed, hchanged, hsame⟩ := h.exists_folder hfolder
      simp only [hchanged, hfolder, Option.elim_some]
      exact Or.inr ⟨_, _, rfl, rfl, hsame.nodes.map Prod.fst⟩

/-- A change that makes the same of a folder in any order may be made in both trees. -/
theorem Reordered.change (h : tree.Reordered other) {new : Folder → Folder}
    (hnew : ∀ folder changed, folder.Reordered changed → (new folder).Reordered (new changed))
    (number : ℕ) : (tree.change number new).Reordered (other.change number new) := by
  refine ⟨h.here, fun place => ?_⟩
  rw [getElem?_change, getElem?_change]
  by_cases hplace : number = place
  · rw [if_pos hplace, if_pos hplace]
    cases hfolder : tree.folders[place]? with
    | none =>
      rw [h.folders_eq_none hfolder]
      exact .none
    | some folder =>
      obtain ⟨changed, hchanged, hsame⟩ := h.exists_folder hfolder
      rw [hchanged]
      exact .some (hnew folder changed hsame)
  · rw [if_neg hplace, if_neg hplace]
    exact h.folders place

end Tree

end OriginMap.Files
