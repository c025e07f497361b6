import Mathlib.Data.Nat.Notation
import OriginMap.Proofs.Files.Standing

/-!
# What stays beside some names

Writing, removing and renaming files under some names of one folder leave everything else in the folder as
it was, in the same order, whether they succeed or fail. If there is no such folder, none of them does
anything.
-/

namespace OriginMap.Files

/-! ## Folders -/

namespace Folder

/-- What is in a folder beside some names, in its order. -/
def beside (folder : Folder) (names : List String) : List (String × Node) :=
  folder.nodes.filter fun item => item.1 ∉ names

variable {folder other : Folder} {names : List String} {name : String}

/-- Every other name is looked up beside the given ones. -/
theorem lookup_beside (h : name ∉ names) : (folder.beside names).lookup name = folder.node? name := by
  rw [beside, node?]
  induction folder.nodes with
  | nil => rfl
  | cons item nodes ih =>
    obtain ⟨key, node⟩ := item
    by_cases hname : name = key
    · subst hname
      simp [h]
    · have hfalse := beq_eq_false_iff_ne.mpr hname
      by_cases hkey : key ∈ names
      · simpa [List.filter_cons, hkey, List.lookup_cons, hfalse] using ih
      · simpa [List.filter_cons, hkey, List.lookup_cons, hfalse] using ih

/-- Folders with the same things beside some names have the same under every other name. -/
theorem node?_of_beside (hsame : other.beside names = folder.beside names) (h : name ∉ names) :
    other.node? name = folder.node? name := by
  rw [← lookup_beside h, hsame, lookup_beside h]

/-- Erasing one of the names changes nothing beside them. -/
theorem beside_erase (folder : Folder) (h : name ∈ names) :
    (folder.erase name).beside names = folder.beside names := by
  rw [beside, erase, List.filter_filter]
  refine List.filter_congr fun item _ => ?_
  by_cases hitem : item.1 = name
  · simp [hitem, h]
  · simp [hitem]

/-- Giving one of the names to something changes nothing beside them. -/
theorem beside_put (folder : Folder) (h : name ∈ names) (node : Node) :
    (folder.put name node).beside names = folder.beside names := by
  have hnew : [(name, node)].filter (fun item => item.1 ∉ names) = [] := by simp [h]
  rw [beside, put, List.filter_append, hnew, List.append_nil]
  exact beside_erase folder h

end Folder

/-! ## Trees -/

namespace Tree

/-- A folder where the names below a path are sought, for an operation that ends in one of them. -/
theorem holds_of_spot {tree : Tree} {root : Path} {name : String} {place : Spot}
    (h : tree.spot (root.child name) = .ok place) :
    tree.Holds root place.number place.folder := by
  obtain ⟨hreach, hfolder, -, -⟩ := of_spot h
  rw [Path.isAbsolute_child, Path.child_eq, List.dropLast_concat] at hreach
  exact ⟨hreach, hfolder⟩

/-- A file that can be removed below a path stands in a folder. -/
theorem holds_of_remove {tree after : Tree} {root : Path} {name : String}
    (h : tree.remove (root.child name) = .ok after) :
    ∃ number folder, tree.Holds root number folder := by
  unfold remove at h
  cases hspot : tree.spot (root.child name) with
  | error trouble => simp [hspot] at h
  | ok place => exact ⟨place.number, place.folder, holds_of_spot hspot⟩

/-- Two trees differ at most in what some names stand for in the folder where the names below a path
are sought. They are the same if there is no such folder. -/
structure SameBeside (names : List String) (root : Path) (tree other : Tree) : Prop where
  /-- The folders are the same. -/
  folders : tree.SameFolders other
  /-- What is in the folder beside the names is the same. -/
  beside : ∀ number folder, tree.Holds root number folder →
    ∃ changed, other.Holds root number changed ∧ changed.beside names = folder.beside names
  /-- Without a folder nothing differs. -/
  nowhere : (∀ number folder, ¬tree.Holds root number folder) → other = tree

variable {names : List String} {root : Path} {tree other after : Tree} {name : String}

/-- A tree does not differ from itself. -/
theorem SameBeside.refl (names : List String) (root : Path) (tree : Tree) :
    tree.SameBeside names root tree :=
  ⟨.refl tree, fun _ folder h => ⟨folder, h, rfl⟩, fun _ => rfl⟩

/-- Trees that differ in some names twice differ in them at most. -/
theorem SameBeside.trans (h : tree.SameBeside names root other)
    (h' : other.SameBeside names root after) : tree.SameBeside names root after := by
  refine ⟨h.folders.trans h'.folders, fun number folder hholds => ?_, fun hnone => ?_⟩
  · obtain ⟨middle, hmiddle, hsame⟩ := h.beside number folder hholds
    obtain ⟨last, hlast, hsame'⟩ := h'.beside number middle hmiddle
    exact ⟨last, hlast, hsame'.trans hsame⟩
  · obtain rfl := h.nowhere hnone
    exact h'.nowhere hnone

/-- Writing a file under one of the names changes nothing else. -/
theorem sameBeside_of_write (hname : Path.isName name = true) (hmem : name ∈ names)
    {contents : Bytes} (h : tree.write (root.child name) contents = .ok after) :
    tree.SameBeside names root after := by
  refine ⟨sameFolders_of_write h, fun number folder hholds => ?_, fun hnone => ?_⟩
  · obtain ⟨-, hfree, rfl⟩ := (hholds.write_child_eq_ok hname).mp h
    exact ⟨_, hholds.put hfree contents, folder.beside_put hmem _⟩
  · obtain ⟨number, folder, hholds⟩ := holds_of_write h
    exact absurd hholds (hnone number folder)

/-- Removing a file under one of the names changes nothing else. -/
theorem sameBeside_of_remove (hname : Path.isName name = true) (hmem : name ∈ names)
    (h : tree.remove (root.child name) = .ok after) : tree.SameBeside names root after := by
  refine ⟨sameFolders_of_remove h, fun number folder hholds => ?_, fun hnone => ?_⟩
  · obtain ⟨-, ⟨contents, hnode⟩, rfl⟩ := (hholds.remove_child_eq_ok hname).mp h
    exact ⟨_, hholds.erase hnode, folder.beside_erase hmem⟩
  · obtain ⟨number, folder, hholds⟩ := holds_of_remove h
    exact absurd hholds (hnone number folder)

/-- Renaming a file from one of the names to another changes nothing else. -/
theorem sameBeside_of_rename {target : String} (hname : Path.isName name = true)
    (htarget : Path.isName target = true) (hmem : name ∈ names) (hmemTarget : target ∈ names)
    (h : tree.rename (root.child name) (root.child target) = .ok after) :
    tree.SameBeside names root after := by
  obtain ⟨contents, rest, -, hremove, hwrite⟩ := rename_eq_ok.mp h
  exact (sameBeside_of_remove hname hmem hremove).trans
    (sameBeside_of_write htarget hmemTarget hwrite)

/-- A change that may fail changes nothing else if it does not when it succeeds. -/
theorem sameBeside_settle {result : Except Trouble Tree}
    (h : ∀ after, result = .ok after → tree.SameBeside names root after) :
    tree.SameBeside names root (tree.settle result).2 := by
  cases result with
  | error trouble => exact .refl names root tree
  | ok after => exact h after rfl

/-! ## What stays -/

/-- A name below a path leads where it did if the folder stays where it is and the name stands for
what it stood for. -/
theorem Holds.walk_child_congr {number : ℕ} {folder changed : Folder}
    (h : tree.Holds root number folder) (h' : other.Holds root number changed)
    (habove : changed.above = folder.above) (hnode : changed.node? name = folder.node? name)
    (hempty : name ≠ "") : other.walk (root.child name) = tree.walk (root.child name) := by
  have hpath : root.child name ≠ .empty := by
    intro hchild
    rw [Path.child_eq] at hchild
    have hlast := congrArg List.getLast? hchild
    rw [List.getLast?_concat] at hlast
    exact hempty (Option.some.inj hlast)
  have hreach {tree : Tree} {folder : Folder} (h : tree.Holds root number folder) :
      tree.reach (root.child name).isAbsolute (root.child name) =
        tree.follow (.folder number) name := by
    rw [Path.isAbsolute_child, Path.child_eq, reach_concat, h.reach]
    rfl
  have hfollow : other.follow (.folder number) name = tree.follow (.folder number) name := by
    rw [follow, follow]
    simp only [h.folder, h'.folder, habove, hnode]
  rw [walk, walk, if_neg hpath, if_neg hpath, hreach h, hreach h', hfollow]

/-- What stands at the path of any other name stays. -/
theorem SameBeside.walk_child (h : tree.SameBeside names root other) (hname : name ∉ names)
    (hempty : name ≠ "") : other.walk (root.child name) = tree.walk (root.child name) := by
  by_cases hsome : ∃ number folder, tree.Holds root number folder
  · obtain ⟨number, folder, hholds⟩ := hsome
    obtain ⟨changed, hchanged, hsame⟩ := h.beside number folder hholds
    have habove : changed.above = folder.above := by
      have := h.folders.above number
      rw [hholds.folder, hchanged.folder] at this
      exact Option.some.inj this
    exact hholds.walk_child_congr hchanged habove (Folder.node?_of_beside hsame hname) hempty
  · simp only [not_exists] at hsome
    rw [h.nowhere hsome]

/-- What can be read at the path of any other name stays. -/
theorem SameBeside.read_child (h : tree.SameBeside names root other) (hname : name ∉ names)
    (hempty : name ≠ "") : other.read (root.child name) = tree.read (root.child name) := by
  rw [read, read, h.walk_child hname hempty]

end Tree

end OriginMap.Files
