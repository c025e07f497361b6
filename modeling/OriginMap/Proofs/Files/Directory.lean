import Mathlib.Data.Nat.Notation
import OriginMap.Files.Script

/-!
# Work in one folder

Reading, writing, removing and renaming files never changes which folders there are and how they hang
together. A path that leads to a folder therefore goes on leading there while files come and go, and an
operation on a path one name below it is an operation on that name in the folder.
-/

namespace OriginMap.Files

/-- The names of a folder are those that stand for something. -/
theorem Folder.mem_names {folder : Folder} {name : String} :
    name ∈ folder.nodes.map Prod.fst ↔ folder.node? name ≠ none := by
  rw [Folder.node?, ← Option.isSome_iff_ne_none, List.lookup_isSome_iff, List.mem_map]
  simp only [beq_iff_eq, eq_comm (a := name)]

/-- A name that stands for nothing is erased without effect. -/
theorem Folder.erase_eq_self {folder : Folder} {name : String} (h : folder.node? name = none) :
    folder.erase name = folder := by
  have hnodes : (folder.nodes.filter fun item => item.1 ≠ name) = folder.nodes := by
    refine List.filter_eq_self.mpr fun item hitem => decide_eq_true fun hname => ?_
    exact Folder.mem_names.mp (List.mem_map.mpr ⟨item, hitem, hname⟩) h
  rw [erase, hnodes]

/-! ## Trees that differ in files only -/

namespace Tree

/-- What has a name in a folder of the tree. -/
def node? (tree : Tree) (number : ℕ) (name : String) : Option Node :=
  tree.folders[number]?.bind (·.node? name)

/-- Two trees have the same folders in the same places. -/
structure SameFolders (tree other : Tree) : Prop where
  /-- The working directory is the same. -/
  here : other.here = tree.here
  /-- There are the same folders, each below the same one. -/
  above : ∀ number : ℕ,
    other.folders[number]?.map Folder.above = tree.folders[number]?.map Folder.above
  /-- The same names stand for the same folders. -/
  inside : ∀ number name inner,
    other.node? number name = some (.folder inner) ↔ tree.node? number name = some (.folder inner)

/-- A tree has its own folders. -/
theorem SameFolders.refl (tree : Tree) : tree.SameFolders tree :=
  ⟨rfl, fun _ => rfl, fun _ _ _ => Iff.rfl⟩

/-- Trees with the same folders may be exchanged. -/
theorem SameFolders.symm {tree other : Tree} (h : tree.SameFolders other) : other.SameFolders tree :=
  ⟨h.here.symm, fun number => (h.above number).symm, fun number name inner =>
    (h.inside number name inner).symm⟩

/-- Folders that stay the same twice stay the same. -/
theorem SameFolders.trans {tree middle other : Tree} (h : tree.SameFolders middle)
    (h' : middle.SameFolders other) : tree.SameFolders other :=
  ⟨h'.here.trans h.here, fun number => (h'.above number).trans (h.above number),
    fun number name inner => (h'.inside number name inner).trans (h.inside number name inner)⟩

/-- One piece of a path from folder to folder leads the same way where the folders are the same. -/
theorem SameFolders.follow {tree other : Tree} (h : tree.SameFolders other) {number inner : ℕ}
    {piece : String} (hfollow : tree.follow (.folder number) piece = .ok (.folder inner)) :
    other.follow (.folder number) piece = .ok (.folder inner) := by
  have habove := h.above number
  have hinside := h.inside number piece inner
  unfold Tree.follow node? at *
  cases hfolder : tree.folders[number]? with
  | none => simp [hfolder] at hfollow
  | some folder =>
    rw [hfolder] at habove
    obtain ⟨folder', hfolder', habove⟩ := Option.map_eq_some_iff.mp habove
    simp only [hfolder, hfolder', Option.bind_some, habove] at hfollow hinside ⊢
    by_cases hhere : piece = "" ∨ piece = "."
    · rw [if_pos hhere] at hfollow ⊢
      exact hfollow
    · rw [if_neg hhere] at hfollow ⊢
      by_cases hback : piece = ".."
      · rw [if_pos hback] at hfollow ⊢
        exact hfollow
      · rw [if_neg hback] at hfollow ⊢
        by_cases hlong : Path.maxNameSize < piece.utf8ByteSize
        · rw [if_pos hlong] at hfollow
          cases hfollow
        · rw [if_neg hlong] at hfollow ⊢
          cases hnode : folder.node? piece with
          | none => simp [hnode] at hfollow
          | some node =>
            simp only [hnode, Option.elim_some, Except.ok.injEq] at hfollow
            rw [hinside.mpr (by rw [hnode, hfollow])]
            rfl

/-- A path goes no further than a file. -/
theorem foldlM_follow_file (tree : Tree) {contents : Bytes} {pieces : List String} {node : Node}
    (h : pieces.foldlM tree.follow (.file contents) = .ok node) : node = .file contents := by
  cases pieces with
  | nil => exact (Except.ok.inj h).symm
  | cons piece pieces => simp [follow, Bind.bind, Except.bind] at h

/-- Pieces of a path lead to the same folder where the folders are the same. -/
theorem SameFolders.foldlM_follow {tree other : Tree} (h : tree.SameFolders other)
    {pieces : List String} {number last : ℕ}
    (hway : pieces.foldlM tree.follow (.folder number) = .ok (.folder last)) :
    pieces.foldlM other.follow (.folder number) = .ok (.folder last) := by
  induction pieces generalizing number with
  | nil => exact hway
  | cons piece pieces ih =>
    rw [List.foldlM_cons] at hway ⊢
    cases hpiece : tree.follow (.folder number) piece with
    | error trouble => simp [hpiece, Bind.bind, Except.bind] at hway
    | ok node =>
      rw [hpiece] at hway
      cases node with
      | file contents =>
        have := tree.foldlM_follow_file hway
        cases this
      | folder inner =>
        rw [h.follow hpiece]
        exact ih hway

/-- Paths lead to the same folders where the folders are the same. -/
theorem SameFolders.reach {tree other : Tree} (h : tree.SameFolders other) {absolute : Bool}
    {pieces : List String} {number : ℕ} (hreach : tree.reach absolute pieces = .ok (.folder number)) :
    other.reach absolute pieces = .ok (.folder number) := by
  rw [Tree.reach, h.here]
  exact h.foldlM_follow hreach

/-- The folder at a path is there in every tree with the same folders. -/
theorem SameFolders.walk {tree other : Tree} (h : tree.SameFolders other) {path : Path} {number : ℕ}
    (hwalk : tree.walk path = .ok (.folder number)) : other.walk path = .ok (.folder number) := by
  unfold Tree.walk at hwalk ⊢
  by_cases hempty : path = .empty
  · rw [if_pos hempty] at hwalk
    cases hwalk
  · rw [if_neg hempty] at hwalk ⊢
    by_cases hfits : path.fits = true
    · rw [if_pos hfits] at hwalk ⊢
      exact h.reach hwalk
    · rw [if_neg hfits] at hwalk
      cases hwalk

/-- The folders of a tree with a change to one of them. -/
theorem getElem?_change (tree : Tree) (number other : ℕ) (new : Folder → Folder) :
    (tree.change number new).folders[other]? =
      if number = other then tree.folders[other]?.map new else tree.folders[other]? := by
  simp [change, Array.getElem?_modify]

/-- A tree is told by its folders and its working directory. -/
theorem ext_folders {tree other : Tree} (hhere : other.here = tree.here)
    (h : ∀ number : ℕ, other.folders[number]? = tree.folders[number]?) : other = tree := by
  have hfolders : other.folders = tree.folders := Array.ext_getElem? h
  cases tree
  cases other
  simp only at hhere hfolders
  rw [hhere, hfolders]

/-- Two changes to a folder are one. -/
theorem change_change (tree : Tree) (number : ℕ) (first second : Folder → Folder) :
    (tree.change number first).change number second = tree.change number (second ∘ first) := by
  refine ext_folders rfl fun place => ?_
  simp only [getElem?_change]
  split
  · rw [Option.map_map]
  · rfl

/-- Changes that make the same of the folder that is there are the same. -/
theorem change_congr {tree : Tree} {number : ℕ} {folder : Folder}
    (hfolder : tree.folders[number]? = some folder) {first second : Folder → Folder}
    (hsame : first folder = second folder) : tree.change number first = tree.change number second := by
  refine ext_folders rfl fun place => ?_
  simp only [getElem?_change]
  split
  · next hplace => rw [← hplace, hfolder, Option.map_some, Option.map_some, hsame]
  · rfl

/-- A change that leaves the folder that is there as it is changes nothing. -/
theorem change_eq_self {tree : Tree} {number : ℕ} {folder : Folder}
    (hfolder : tree.folders[number]? = some folder) {new : Folder → Folder}
    (hsame : new folder = folder) : tree.change number new = tree := by
  refine ext_folders rfl fun place => ?_
  rw [getElem?_change]
  split
  · next hplace => rw [← hplace, hfolder, Option.map_some, hsame]
  · rfl

/-- A change to the files of a folder keeps the folders. -/
theorem sameFolders_change (tree : Tree) {number : ℕ} {new : Folder → Folder}
    (habove : ∀ folder, (new folder).above = folder.above)
    (hinside : ∀ folder, tree.folders[number]? = some folder → ∀ name inner,
      (new folder).node? name = some (.folder inner) ↔ folder.node? name = some (.folder inner)) :
    tree.SameFolders (tree.change number new) := by
  refine ⟨rfl, fun other => ?_, fun other name inner => ?_⟩
  · rw [getElem?_change]
    split
    · cases tree.folders[other]? with
      | none => rfl
      | some folder => simp [habove]
    · rfl
  · rw [node?, node?, getElem?_change]
    split
    · next hnumber =>
      subst hnumber
      cases hfolder : tree.folders[number]? with
      | none => rfl
      | some folder => simpa using hinside folder hfolder name inner
    · rfl

/-- Giving a name that stands for no folder to a file keeps the folders. -/
theorem sameFolders_put {tree : Tree} {number : ℕ} {folder : Folder} {name : String}
    (hfolder : tree.folders[number]? = some folder)
    (hnode : ∀ inner, folder.node? name ≠ some (.folder inner)) (contents : Bytes) :
    tree.SameFolders (tree.change number (·.put name (.file contents))) := by
  apply sameFolders_change tree fun folder => folder.above_put name _
  intro other hother name' inner
  obtain rfl := Option.some.inj (hfolder.symm.trans hother)
  rw [Folder.node?_put]
  by_cases hname : name' = name
  · subst hname
    simp [hnode inner]
  · rw [if_neg hname]

/-- Removing a file keeps the folders. -/
theorem sameFolders_erase {tree : Tree} {number : ℕ} {folder : Folder} {name : String}
    {contents : Bytes} (hfolder : tree.folders[number]? = some folder)
    (hnode : folder.node? name = some (.file contents)) :
    tree.SameFolders (tree.change number (·.erase name)) := by
  apply sameFolders_change tree fun folder => folder.above_erase name
  intro other hother name' inner
  obtain rfl := Option.some.inj (hfolder.symm.trans hother)
  rw [Folder.node?_erase]
  by_cases hname : name' = name
  · subst hname
    simp [hnode]
  · rw [if_neg hname]

end Tree

/-! ## Paths one name below a folder -/

namespace Path

/-- The pieces of a path that come before a name in the folder at the path. -/
def front (folder : Path) : Path := if folder.getLast? = some "" then folder.dropLast else folder

/-- Whether a text can name something in a folder. -/
def isName (name : String) : Bool :=
  name ≠ "" && name ≠ "." && name ≠ ".." && name.utf8ByteSize ≤ maxNameSize

/-- What a text must be to name something in a folder. -/
theorem isName_iff {name : String} : isName name = true ↔
    name ≠ "" ∧ name ≠ "." ∧ name ≠ ".." ∧ name.utf8ByteSize ≤ maxNameSize := by
  simp [isName, and_assoc]

/-- The path of a name ends in that name. -/
theorem child_eq (folder : Path) (name : String) : folder.child name = folder.front ++ [name] := by
  unfold child front
  split <;> rfl

/-- The first piece decides from where the path of a name is seen. -/
theorem isAbsolute_child (folder : Path) (name : String) :
    (folder.child name).isAbsolute = decide (folder.front.head? = some "") := by
  rw [child_eq]
  match folder.front with
  | [] => simp [isAbsolute]
  | [first] => by_cases h : first = "" <;> simp [isAbsolute, h]
  | first :: second :: rest => by_cases h : first = "" <;> simp [isAbsolute, h]

/-- A path and the paths of the names below it are seen from the same place, but for the empty one. -/
theorem isAbsolute_eq_front {folder : Path} (h : folder ≠ empty) :
    folder.isAbsolute = decide (folder.front.head? = some "") := by
  unfold front
  by_cases hslash : folder.getLast? = some ""
  · rw [if_pos hslash]
    obtain ⟨pieces, rfl⟩ := List.getLast?_eq_some_iff.mp hslash
    rw [List.dropLast_concat]
    match pieces with
    | [] => exact absurd rfl h
    | [first] => by_cases h : first = "" <;> simp [isAbsolute, h]
    | first :: second :: rest => by_cases h : first = "" <;> simp [isAbsolute, h]
  · rw [if_neg hslash]
    match folder with
    | [] => simp [isAbsolute]
    | [first] =>
      have hfirst : first ≠ "" := by simpa using hslash
      simp [isAbsolute, hfirst]
    | first :: second :: rest => by_cases h : first = "" <;> simp [isAbsolute, h]

/-- A path that ends in a name is not empty. -/
theorem child_ne_empty {name : String} (hname : isName name = true) (folder : Path) :
    folder.child name ≠ empty := by
  intro h
  rw [child_eq] at h
  have hlast := congrArg List.getLast? h
  rw [List.getLast?_concat] at hlast
  exact (isName_iff.mp hname).1 (Option.some.inj hlast)

/-- Which paths of names below a folder can be looked up. -/
theorem fits_child_iff (folder : Path) (name : String) : (folder.child name).fits = true ↔
    (∀ piece ∈ folder.front, '\x00' ∉ piece.toList) ∧ '\x00' ∉ name.toList ∧
      (if folder.front = [] then 0 else folder.front.toText.utf8ByteSize + 1) +
        name.utf8ByteSize < maxSize := by
  have hsize : (toText (folder.front ++ [name])).utf8ByteSize =
      (if folder.front = [] then 0 else folder.front.toText.utf8ByteSize + 1) +
        name.utf8ByteSize := by
    by_cases hfront : folder.front = []
    · simp [toText, hfront]
    · rw [toText, String.intercalate_append_of_ne_nil hfront (by simp),
        String.utf8ByteSize_append, String.utf8ByteSize_append, if_neg hfront,
        String.intercalate_singleton]
      rfl
  rw [child_eq, fits, Bool.and_eq_true, List.all_append, Bool.and_eq_true, decide_eq_true_eq, hsize]
  simp [and_assoc]

/-- If the path of a name can be looked up, so can that of a shorter one. -/
theorem fits_child_of_le {folder : Path} {name shorter : String}
    (h : (folder.child name).fits = true) (hnul : '\x00' ∉ shorter.toList)
    (hsize : shorter.utf8ByteSize ≤ name.utf8ByteSize) : (folder.child shorter).fits = true := by
  rw [fits_child_iff] at h ⊢
  exact ⟨h.1, hnul, by omega⟩

/-- If the path of a name can be looked up, so can that of the folder. -/
theorem fits_of_child {folder : Path} {name : String} (h : (folder.child name).fits = true) :
    folder.fits = true := by
  by_cases hslash : folder.getLast? = some ""
  · have hchild : folder.child "" = folder := by
      obtain ⟨pieces, rfl⟩ := List.getLast?_eq_some_iff.mp hslash
      rw [child, if_pos hslash, List.dropLast_concat]
    rw [← hchild]
    exact fits_child_of_le h (by simp) (by simp)
  · have hfront : folder.front = folder := by rw [front, if_neg hslash]
    rw [fits_child_iff, hfront] at h
    obtain ⟨hpieces, -, hsize⟩ := h
    have htext : folder.toText.utf8ByteSize < maxSize := by
      by_cases hnil : folder = []
      · subst hnil
        decide
      · rw [if_neg hnil] at hsize
        omega
    rw [fits, Bool.and_eq_true, decide_eq_true_eq]
    exact ⟨by simpa using hpieces, htext⟩

end Path

namespace Tree

/-- A tree has a folder where the names below a path are sought. -/
structure Holds (tree : Tree) (root : Path) (number : ℕ) (folder : Folder) : Prop where
  /-- The pieces before a name lead to the folder's number. -/
  reach : tree.reach (root.front.head? = some "") root.front = .ok (.folder number)
  /-- The folder has this number. -/
  folder : tree.folders[number]? = some folder

/-- A folder in which names are sought is there in every tree with the same folders. -/
theorem SameFolders.holds {tree other : Tree} (h : tree.SameFolders other) {root : Path} {number : ℕ}
    {folder : Folder} (hholds : tree.Holds root number folder) :
    ∃ changed, other.Holds root number changed := by
  have habove := h.above number
  rw [hholds.folder] at habove
  obtain ⟨changed, hchanged, -⟩ := Option.map_eq_some_iff.mp habove
  exact ⟨changed, h.reach hholds.reach, hchanged⟩

/-- An empty piece leads nowhere. -/
theorem follow_empty {tree : Tree} {node last : Node} (h : tree.follow node "" = .ok last) :
    node = last := by
  cases node with
  | file contents => simp [follow] at h
  | folder number =>
    unfold follow at h
    cases hfolder : tree.folders[number]? with
    | none => simp [hfolder] at h
    | some folder => simpa [hfolder] using h

/-- A path with one more piece leads on from where the path leads. -/
theorem reach_concat (tree : Tree) (absolute : Bool) (pieces : List String) (piece : String) :
    tree.reach absolute (pieces ++ [piece]) =
      (tree.reach absolute pieces).bind fun node => tree.follow node piece := by
  have hpieces : (if absolute then pieces ++ [piece] else tree.here ++ (pieces ++ [piece])) =
      (if absolute then pieces else tree.here ++ pieces) ++ [piece] := by
    cases absolute <;> simp
  rw [reach, hpieces, List.foldlM_append, reach]
  cases (if absolute then pieces else tree.here ++ pieces).foldlM tree.follow (.folder 0) with
  | error trouble => rfl
  | ok node =>
    show [piece].foldlM tree.follow node = tree.follow node piece
    rw [List.foldlM_cons]
    cases tree.follow node piece <;> rfl

/-- The pieces before a name in a folder lead to what stands at the folder's path. -/
theorem reach_front {tree : Tree} {root : Path} {node : Node} (h : tree.walk root = .ok node) :
    tree.reach (root.front.head? = some "") root.front = .ok node := by
  unfold walk at h
  by_cases hempty : root = .empty
  · rw [if_pos hempty] at h
    cases h
  · rw [if_neg hempty, Path.isAbsolute_eq_front hempty] at h
    by_cases hfits : root.fits = true
    · rw [if_pos hfits] at h
      by_cases hslash : root.getLast? = some ""
      · obtain ⟨pieces, hpieces⟩ := List.getLast?_eq_some_iff.mp hslash
        have hfront : root = root.front ++ [""] := by
          rw [Path.front, if_pos hslash, hpieces, List.dropLast_concat]
        rw [hfront, reach_concat, ← hfront] at h
        cases hreach : tree.reach (root.front.head? = some "") root.front with
        | error trouble => simp [hreach, Except.bind] at h
        | ok last =>
          rw [hreach] at h
          rw [follow_empty h]
      · rwa [Path.front, if_neg hslash] at h ⊢
    · rw [if_neg hfits] at h
      cases h

/-- The folder at a path is where the names below it are sought. -/
theorem Holds.of_folderAt {tree : Tree} {root : Path} {folder : Folder}
    (h : tree.folderAt root = .ok folder) :
    ∃ number, tree.walk root = .ok (.folder number) ∧ tree.Holds root number folder := by
  unfold folderAt at h
  cases hwalk : tree.walk root with
  | error trouble => simp [hwalk] at h
  | ok node =>
    cases node with
    | file contents => simp [hwalk] at h
    | folder number =>
      refine ⟨number, rfl, reach_front hwalk, ?_⟩
      cases hfolder : tree.folders[number]? with
      | none => simp [hwalk, hfolder] at h
      | some other => simpa [hwalk, hfolder] using h

/-- The folder where the names below a path are sought is at the path if the path leads to it. -/
theorem Holds.folderAt {tree : Tree} {root : Path} {number : ℕ} {folder : Folder}
    (h : tree.Holds root number folder) (hwalk : tree.walk root = .ok (.folder number)) :
    tree.folderAt root = .ok folder := by
  rw [Tree.folderAt, hwalk]
  simp only [h.folder, Option.elim_some]

/-- A path that can be looked up leads to the folder where the names below it are sought. -/
theorem Holds.walk_root {tree : Tree} {root : Path} {number : ℕ} {folder : Folder}
    (h : tree.Holds root number folder) (hroot : root ≠ .empty) (hfits : root.fits = true) :
    tree.walk root = .ok (.folder number) := by
  rw [Tree.walk, if_neg hroot, if_pos hfits, Path.isAbsolute_eq_front hroot]
  by_cases hslash : root.getLast? = some ""
  · have hend : root = root.front ++ [""] := by
      obtain ⟨pieces, hpieces⟩ := List.getLast?_eq_some_iff.mp hslash
      rw [Path.front, if_pos hslash, hpieces, List.dropLast_concat]
    have hfollow : tree.follow (.folder number) "" = .ok (.folder number) := by
      rw [follow]
      simp only [h.folder, true_or, if_true]
    have hreach := tree.reach_concat (root.front.head? = some "") root.front ""
    rw [← hend, h.reach] at hreach
    rw [hreach, Except.bind, hfollow]
  · have hfront : root.front = root := by rw [Path.front, if_neg hslash]
    have hreach := h.reach
    rwa [hfront] at hreach ⊢

/-- There is one folder where the names below a path are sought. -/
theorem Holds.unique {tree : Tree} {root : Path} {number number' : ℕ} {folder folder' : Folder}
    (h : tree.Holds root number folder) (h' : tree.Holds root number' folder') :
    folder = folder' := by
  obtain rfl : number = number' := by simpa using h.reach.symm.trans h'.reach
  exact Option.some.inj (h.folder.symm.trans h'.folder)

/-- A folder that can be listed has the names that are listed. -/
theorem Holds.of_list {tree : Tree} {root : Path} {number : ℕ} {folder : Folder}
    {names : List String} (h : tree.Holds root number folder) (hlist : tree.list root = .ok names) :
    names = folder.nodes.map Prod.fst := by
  rw [list] at hlist
  cases hfolder : tree.folderAt root with
  | error trouble => simp [hfolder, Except.map] at hlist
  | ok found =>
    obtain ⟨_, -, hholds⟩ := Holds.of_folderAt hfolder
    rw [h.unique hholds]
    simpa [hfolder, Except.map, eq_comm] using hlist

section Child

variable {tree : Tree} {root : Path} {number : ℕ} {folder : Folder} {name : String}

/-- A name below a path is sought in the folder there. -/
theorem Holds.spot_child (h : tree.Holds root number folder) (hname : Path.isName name = true) :
    tree.spot (root.child name) =
      if (root.child name).fits then .ok ⟨number, folder, name⟩ else .error .refused := by
  have hreach : tree.reach (root.child name).isAbsolute (root.child name).dropLast =
      .ok (.folder number) := by
    rw [Path.isAbsolute_child, Path.child_eq, List.dropLast_concat]
    exact h.reach
  have hlast : (root.child name).getLast? = some name := by
    rw [Path.child_eq, List.getLast?_concat]
  obtain ⟨hempty, hdot, hdots, hsize⟩ := Path.isName_iff.mp hname
  have hgood : ¬(name = "" ∨ name = "." ∨ name = ".." ∨ Path.maxNameSize < name.utf8ByteSize) := by
    simp [hempty, hdot, hdots, hsize]
  rw [spot, if_neg (Path.child_ne_empty hname root), hreach]
  simp only [h.folder, hlast, if_neg hgood]

/-- What stands at the path of a name is what the name stands for. -/
theorem Holds.walk_child (h : tree.Holds root number folder) (hname : Path.isName name = true) :
    tree.walk (root.child name) =
      if (root.child name).fits then (folder.node? name).elim (.error .missing) .ok
      else .error .refused := by
  obtain ⟨hempty, hdot, hdots, hsize⟩ := Path.isName_iff.mp hname
  have hfollow : tree.follow (.folder number) name =
      (folder.node? name).elim (.error .missing) .ok := by
    unfold follow
    simp only [h.folder, if_neg (not_or.mpr ⟨hempty, hdot⟩), if_neg hdots, if_neg (Nat.not_lt.mpr hsize)]
  rw [walk, if_neg (Path.child_ne_empty hname root), Path.isAbsolute_child, ← hfollow]
  congr 1
  rw [Path.child_eq, reach_concat, h.reach]
  rfl

/-- What stands at the path of a name is what the name stands for, if the path can be looked up. -/
theorem Holds.walk_child_eq_ok (h : tree.Holds root number folder)
    (hname : Path.isName name = true) {node : Node} : tree.walk (root.child name) = .ok node ↔
      (root.child name).fits = true ∧ folder.node? name = some node := by
  rw [h.walk_child hname]
  by_cases hfits : (root.child name).fits = true
  · rw [if_pos hfits]
    cases hnode : folder.node? name <;> simp [hfits]
  · rw [if_neg hfits]
    simp [hfits]

/-- Nothing is missing at the path of a name but what the name does not stand for. -/
theorem Holds.walk_child_eq_missing (h : tree.Holds root number folder)
    (hname : Path.isName name = true) : tree.walk (root.child name) = .error .missing ↔
      (root.child name).fits = true ∧ folder.node? name = none := by
  rw [h.walk_child hname]
  by_cases hfits : (root.child name).fits = true
  · rw [if_pos hfits]
    cases hnode : folder.node? name <;> simp [hfits]
  · rw [if_neg hfits]
    simp [hfits]

/-- What can be read at a path is the contents of a file that stands there. -/
theorem walk_of_read {path : Path} {contents : Bytes} (h : tree.read path = .ok contents) :
    tree.walk path = .ok (.file contents) := by
  unfold read at h
  cases hwalk : tree.walk path with
  | error trouble => simp [hwalk] at h
  | ok node =>
    cases node with
    | folder number => simp [hwalk] at h
    | file found => simpa [hwalk] using h

/-- What stands at the path of a name stands in a folder. -/
theorem holds_of_walk_child (hname : Path.isName name = true) {node : Node}
    (h : tree.walk (root.child name) = .ok node) : ∃ number folder, tree.Holds root number folder := by
  rw [walk, if_neg (Path.child_ne_empty hname root)] at h
  by_cases hfits : (root.child name).fits = true
  · rw [if_pos hfits, Path.isAbsolute_child, Path.child_eq, reach_concat] at h
    cases hreach : tree.reach (root.front.head? = some "") root.front with
    | error trouble => simp [hreach, Except.bind] at h
    | ok last =>
      simp only [hreach, Except.bind] at h
      cases last with
      | file contents => simp [follow] at h
      | folder number =>
        cases hfolder : tree.folders[number]? with
        | none => simp [follow, hfolder] at h
        | some folder => exact ⟨number, folder, hreach, hfolder⟩
  · rw [if_neg hfits] at h
    cases h

/-- A file stands at the path of nothing but a name. -/
theorem isName_of_walk_child (hempty : name ≠ "") {contents : Bytes}
    (h : tree.walk (root.child name) = .ok (.file contents)) : Path.isName name = true := by
  have hfollow : ∃ last, tree.follow last name = .ok (.file contents) := by
    unfold walk at h
    split at h
    · cases h
    · split at h
      · rw [Path.child_eq, reach_concat] at h
        cases hreach : tree.reach (root.front ++ [name]).isAbsolute root.front with
        | error trouble => simp [hreach, Except.bind] at h
        | ok last => exact ⟨last, by simpa [hreach, Except.bind] using h⟩
      · cases h
  obtain ⟨last, hfollow⟩ := hfollow
  cases last with
  | file other => simp [follow] at hfollow
  | folder number =>
    cases hfolder : tree.folders[number]? with
    | none => simp [follow, hfolder] at hfollow
    | some folder =>
      simp only [follow, hfolder] at hfollow
      split at hfollow
      · cases hfollow
      · next hhere =>
        split at hfollow
        · cases hfollow
        · next hback =>
          split at hfollow
          · cases hfollow
          · next hlong =>
            simp only [not_or] at hhere
            exact Path.isName_iff.mpr ⟨hempty, hhere.2, hback, Nat.not_lt.mp hlong⟩

/-- What a name in a folder stands for is what it stands for in the tree. -/
theorem Holds.node?_eq (h : tree.Holds root number folder) (name : String) :
    tree.node? number name = folder.node? name := by
  rw [node?, h.folder, Option.bind_some]

/-- A file below a folder can be read exactly if its name stands for it. -/
theorem Holds.read_child_eq_ok (h : tree.Holds root number folder) (hname : Path.isName name = true)
    {contents : Bytes} : tree.read (root.child name) = .ok contents ↔
      (root.child name).fits = true ∧ folder.node? name = some (.file contents) := by
  rw [read, h.walk_child hname]
  by_cases hfits : (root.child name).fits = true
  · rw [if_pos hfits]
    cases hnode : folder.node? name with
    | none => simp
    | some node => cases node <;> simp [hfits]
  · rw [if_neg hfits]
    simp [hfits]

/-- Nothing is missed at the path of a name but what the name does not stand for. -/
theorem Holds.read_child_eq_missing (h : tree.Holds root number folder)
    (hname : Path.isName name = true) : tree.read (root.child name) = .error .missing ↔
      (root.child name).fits = true ∧ folder.node? name = none := by
  rw [read, h.walk_child hname]
  by_cases hfits : (root.child name).fits = true
  · rw [if_pos hfits]
    cases hnode : folder.node? name with
    | none => simp [hfits]
    | some node => cases node <;> simp
  · rw [if_neg hfits]
    simp [hfits]

/-- A file below a folder can be written exactly if its name stands for no folder. -/
theorem Holds.write_child_eq_ok (h : tree.Holds root number folder) (hname : Path.isName name = true)
    {contents : Bytes} {after : Tree} : tree.write (root.child name) contents = .ok after ↔
      (root.child name).fits = true ∧ (∀ inner, folder.node? name ≠ some (.folder inner)) ∧
        after = tree.change number (·.put name (.file contents)) := by
  rw [write, h.spot_child hname]
  by_cases hfits : (root.child name).fits = true
  · rw [if_pos hfits]
    cases hnode : folder.node? name with
    | none => simp [hfits, hnode, eq_comm]
    | some node => cases node <;> simp [hfits, hnode, eq_comm]
  · rw [if_neg hfits]
    simp [hfits]

/-- A file below a folder can be removed exactly if its name stands for it. -/
theorem Holds.remove_child_eq_ok (h : tree.Holds root number folder)
    (hname : Path.isName name = true) {after : Tree} : tree.remove (root.child name) = .ok after ↔
      (root.child name).fits = true ∧ (∃ contents, folder.node? name = some (.file contents)) ∧
        after = tree.change number (·.erase name) := by
  rw [remove, h.spot_child hname]
  by_cases hfits : (root.child name).fits = true
  · rw [if_pos hfits]
    cases hnode : folder.node? name with
    | none => simp [hnode]
    | some node => cases node <;> simp [hfits, hnode, eq_comm]
  · rw [if_neg hfits]
    simp [hfits]

/-- Nothing is missed on removal but what the name does not stand for. -/
theorem Holds.remove_child_eq_missing (h : tree.Holds root number folder)
    (hname : Path.isName name = true) : tree.remove (root.child name) = .error .missing ↔
      (root.child name).fits = true ∧ folder.node? name = none := by
  rw [remove, h.spot_child hname]
  by_cases hfits : (root.child name).fits = true
  · rw [if_pos hfits]
    cases hnode : folder.node? name with
    | none => simp [hfits, hnode]
    | some node => cases node <;> simp [hnode]
  · rw [if_neg hfits]
    simp [hfits]

/-- The removal of a name that stands for a folder is refused. -/
theorem Holds.remove_child_eq_refused (h : tree.Holds root number folder)
    (hname : Path.isName name = true) {inner : ℕ} (hnode : folder.node? name = some (.folder inner)) :
    tree.remove (root.child name) = .error .refused := by
  rw [remove, h.spot_child hname]
  by_cases hfits : (root.child name).fits = true
  · rw [if_pos hfits]
    simp only [hnode]
  · rw [if_neg hfits]

/-- A folder stays where it is when a name in it that stands for no folder is given to a file. -/
theorem Holds.put (h : tree.Holds root number folder)
    (hnode : ∀ inner, folder.node? name ≠ some (.folder inner)) (contents : Bytes) :
    (tree.change number (·.put name (.file contents))).Holds root number
      (folder.put name (.file contents)) := by
  refine ⟨(sameFolders_put h.folder hnode contents).reach h.reach, ?_⟩
  rw [getElem?_change, if_pos rfl, h.folder]
  rfl

/-- A folder stays where it is when a file in it is removed. -/
theorem Holds.erase (h : tree.Holds root number folder) {contents : Bytes}
    (hnode : folder.node? name = some (.file contents)) :
    (tree.change number (·.erase name)).Holds root number (folder.erase name) := by
  refine ⟨(sameFolders_erase h.folder hnode).reach h.reach, ?_⟩
  rw [getElem?_change, if_pos rfl, h.folder]
  rfl

end Child

/-- A file gets another path by being read, removed and written. -/
theorem rename_eq_ok {tree : Tree} {source target : Path} {after : Tree} :
    tree.rename source target = .ok after ↔ ∃ contents rest,
      tree.read source = .ok contents ∧ tree.remove source = .ok rest ∧
        rest.write target contents = .ok after := by
  unfold rename
  cases tree.read source with
  | error trouble => simp
  | ok contents =>
    cases tree.remove source with
    | error trouble => simp
    | ok rest => simp

/-- A file below a folder can be given another name that stands for no folder. -/
theorem Holds.rename_child {tree : Tree} {root : Path} {number : ℕ} {folder : Folder}
    {source target : String} {contents : Bytes} (h : tree.Holds root number folder)
    (hsource : Path.isName source = true) (htarget : Path.isName target = true)
    (hfits : (root.child source).fits = true) (hfitsTarget : (root.child target).fits = true)
    (hnode : folder.node? source = some (.file contents))
    (hfree : ∀ inner, folder.node? target ≠ some (.folder inner)) :
    ∃ after, tree.rename (root.child source) (root.child target) = .ok after := by
  have hread := (h.read_child_eq_ok hsource).mpr ⟨hfits, hnode⟩
  have hremove : tree.remove (root.child source) = .ok (tree.change number (·.erase source)) :=
    (h.remove_child_eq_ok hsource).mpr ⟨hfits, ⟨contents, hnode⟩, rfl⟩
  have hfreeRest : ∀ inner, (folder.erase source).node? target ≠ some (.folder inner) := by
    intro inner
    rw [Folder.node?_erase]
    split
    · simp
    · exact hfree inner
  have hwrite : (tree.change number (·.erase source)).write (root.child target) contents = .ok _ :=
    ((h.erase hnode).write_child_eq_ok htarget).mpr ⟨hfitsTarget, hfreeRest, rfl⟩
  exact ⟨_, rename_eq_ok.mpr ⟨contents, _, hread, hremove, hwrite⟩⟩

end Tree

end OriginMap.Files
