import OriginMap.Proofs.Files.Footprint

/-!
# Making folders on the way

A folder that is made is empty. A path that never leads back, by two dots, cannot leave it again, so such
a path finds a file after folders were made exactly if it found the file before. A path that leads back
may find more: what it goes through is there then.
-/

namespace OriginMap.Files

namespace Tree

/-! ## Ways -/

/-- The pieces by which a path is followed from the root. -/
def way (tree : Tree) (path : Path) : List String :=
  if path.isAbsolute then path else tree.here ++ path

/-- A file can be read at a path that can be looked up and whose way leads to it. -/
theorem read_eq_ok {tree : Tree} {path : Path} {contents : Bytes} :
    tree.read path = .ok contents ↔ path ≠ .empty ∧ path.fits = true ∧
      (tree.way path).foldlM tree.follow (.folder 0) = .ok (.file contents) := by
  rw [read, walk, reach, ← way]
  by_cases hempty : path = .empty
  · simp [hempty]
  · rw [if_neg hempty]
    by_cases hfits : path.fits = true
    · rw [if_pos hfits]
      cases (tree.way path).foldlM tree.follow (.folder 0) with
      | error trouble => simp
      | ok node => cases node <;> simp [hempty, hfits]
    · rw [if_neg hfits]
      simp [hfits]

/-- The way to a name below a path leads back only if the way to the path does. -/
theorem notMem_way_child {tree : Tree} {root : Path} {name : String}
    (h : ".." ∉ tree.way root) (hname : name ≠ "..") : ".." ∉ tree.way (root.child name) := by
  have hfront : ∀ piece ∈ root.front, piece ∈ root := by
    intro piece hpiece
    unfold Path.front at hpiece
    split_ifs at hpiece
    · exact (List.dropLast_sublist root).subset hpiece
    · exact hpiece
  have hchild (hroot : ".." ∉ root) : ".." ∉ root.child name := by
    rw [Path.child_eq, List.mem_append, List.mem_singleton]
    rintro (hmem | hmem)
    · exact hroot (hfront _ hmem)
    · exact hname hmem.symm
  have hsame : (root.child name).isAbsolute = root.isAbsolute := by
    by_cases hempty : root = .empty
    · subst hempty
      rw [Path.isAbsolute_child]
      rfl
    · rw [Path.isAbsolute_child, Path.isAbsolute_eq_front hempty]
  unfold way at h ⊢
  rw [hsame]
  split_ifs at h ⊢
  · exact hchild h
  · rw [List.mem_append, not_or] at h ⊢
    exact ⟨h.1, hchild h.2⟩

/-! ## Files that stay -/

/-- Two trees have the same files at the end of all ways that never lead back. -/
structure SameFiles (tree other : Tree) : Prop where
  /-- The working directory is the same. -/
  here : other.here = tree.here
  /-- The same pieces lead to the same files. -/
  file : ∀ pieces : List String, ".." ∉ pieces → ∀ contents,
    pieces.foldlM other.follow (.folder 0) = .ok (.file contents) ↔
      pieces.foldlM tree.follow (.folder 0) = .ok (.file contents)

/-- A tree has its own files. -/
theorem SameFiles.refl (tree : Tree) : tree.SameFiles tree := ⟨rfl, fun _ _ _ => Iff.rfl⟩

/-- Files that stay the same twice stay the same. -/
theorem SameFiles.trans {tree middle other : Tree} (h : tree.SameFiles middle)
    (h' : middle.SameFiles other) : tree.SameFiles other :=
  ⟨h'.here.trans h.here, fun pieces hpieces contents =>
    (h'.file pieces hpieces contents).trans (h.file pieces hpieces contents)⟩

/-- The same files can be read at the paths that never lead back. -/
theorem SameFiles.read {tree other : Tree} (h : tree.SameFiles other) {path : Path}
    (hpath : ".." ∉ tree.way path) {contents : Bytes} :
    other.read path = .ok contents ↔ tree.read path = .ok contents := by
  have hway : other.way path = tree.way path := by rw [way, way, h.here]
  rw [read_eq_ok, read_eq_ok, hway, h.file _ hpath]

/-! ## Making a folder -/

/-- From a folder that is not there no pieces lead to a file. -/
theorem foldlM_follow_missing {tree : Tree} {number : ℕ} (h : tree.folders[number]? = none)
    (pieces : List String) (contents : Bytes) :
    pieces.foldlM tree.follow (.folder number) ≠ .ok (.file contents) := by
  intro hfile
  cases pieces with
  | nil => cases hfile
  | cons piece pieces =>
    rw [List.foldlM_cons, follow] at hfile
    simp only [h] at hfile
    cases hfile

/-- A folder that is made stands for a name that stood for nothing. -/
theorem makeFolder_eq_ok {tree after : Tree} {path : Path} (h : tree.makeFolder path = .ok after) :
    ∃ number folder name, tree.folders[number]? = some folder ∧ folder.node? name = none ∧
      after.here = tree.here ∧
      after.folders = (tree.folders.modify number (·.put name (.folder tree.folders.size))).push
        ⟨number, []⟩ := by
  unfold makeFolder at h
  split_ifs at h
  cases hspot : tree.spot path.trimmed with
  | error trouble => simp [hspot] at h
  | ok place =>
    obtain ⟨number, folder, name⟩ := place
    cases hnode : folder.node? name with
    | some node => simp [hspot, hnode] at h
    | none =>
      simp only [hspot, hnode, Except.ok.injEq] at h
      subst h
      exact ⟨number, folder, name, (of_spot hspot).2.1, hnode, rfl, rfl⟩

/-- Once a folder is made a piece that does not lead back leads where it led before, or it led nowhere
then and leads to the new folder now. -/
theorem follow_of_makeFolder {tree after : Tree} {path : Path}
    (h : tree.makeFolder path = .ok after) (number : ℕ) {piece : String} (hpiece : piece ≠ "..") :
    after.follow (.folder number) piece = tree.follow (.folder number) piece ∨
      (∃ trouble, tree.follow (.folder number) piece = .error trouble) ∧
        ∀ node, after.follow (.folder number) piece = .ok node → node = .folder tree.folders.size := by
  obtain ⟨place, folder, name, hfolder, hnode, -, hfolders⟩ := makeFolder_eq_ok h
  have hsize : (tree.folders.modify place (·.put name (.folder tree.folders.size))).size =
      tree.folders.size := Array.size_modify
  have hafter : after.folders[number]? = if number = tree.folders.size then some ⟨place, []⟩
      else if place = number then tree.folders[number]?.map (·.put name (.folder tree.folders.size))
      else tree.folders[number]? := by
    rw [hfolders, Array.getElem?_push, hsize, Array.getElem?_modify]
  by_cases hnew : number = tree.folders.size
  · -- In the new folder only the pieces that lead nowhere lead somewhere.
    have hnone : tree.folders[number]? = none := by simp [hnew]
    refine Or.inr ⟨⟨.missing, by simp [follow, hnone]⟩, fun node hfollow => ?_⟩
    rw [if_pos hnew] at hafter
    simp only [follow, hafter, if_neg hpiece] at hfollow
    split_ifs at hfollow
    · rw [← hnew]
      exact (Except.ok.inj hfollow).symm
    · cases hfollow
  · rw [if_neg hnew] at hafter
    by_cases hplace : place = number
    · subst hplace
      rw [if_pos rfl, hfolder, Option.map_some] at hafter
      by_cases hname : piece = name
      · subst hname
        simp only [follow, hfolder, hafter, hnode, if_neg hpiece, Folder.node?_put, if_true,
          Option.elim_some, Option.elim_none]
        split_ifs
        · exact Or.inl rfl
        · exact Or.inl rfl
        · exact Or.inr ⟨⟨_, rfl⟩, fun node hfollow => (Except.ok.inj hfollow).symm⟩
      · refine Or.inl ?_
        simp only [follow, hfolder, hafter, Folder.node?_put, if_neg hname, if_neg hpiece]
    · rw [if_neg hplace] at hafter
      refine Or.inl ?_
      simp only [follow, hafter, if_neg hpiece]

/-- Making a folder keeps the files. -/
theorem sameFiles_of_makeFolder {tree after : Tree} {path : Path}
    (h : tree.makeFolder path = .ok after) : tree.SameFiles after := by
  obtain ⟨-, -, -, -, -, hhere, -⟩ := makeFolder_eq_ok h
  have hnone : tree.folders[tree.folders.size]? = none := by simp
  -- A piece may lead to any folder, so the rest of the way is followed from all of them.
  suffices hfile : ∀ (pieces : List String) (number : ℕ), ".." ∉ pieces → ∀ contents,
      pieces.foldlM after.follow (.folder number) = .ok (.file contents) ↔
        pieces.foldlM tree.follow (.folder number) = .ok (.file contents) from
    ⟨hhere, fun pieces => hfile pieces 0⟩
  intro pieces
  induction pieces with
  | nil => exact fun _ _ _ => Iff.rfl
  | cons piece pieces ih =>
    intro number hpieces contents
    obtain ⟨hpiece, hrest⟩ := not_or.mp (mt List.mem_cons.mpr hpieces)
    rw [List.foldlM_cons, List.foldlM_cons]
    rcases follow_of_makeFolder h number (Ne.symm hpiece) with hsame | ⟨⟨trouble, hstuck⟩, hnew⟩
    · rw [hsame]
      cases tree.follow (.folder number) piece with
      | error trouble => exact Iff.rfl
      | ok node =>
        cases node with
        | file other => cases pieces <;> exact Iff.rfl
        | folder inner => exact ih inner hrest contents
    · rw [hstuck]
      constructor
      · intro hfile
        cases hfollow : after.follow (.folder number) piece with
        | error trouble =>
          rw [hfollow] at hfile
          cases hfile
        | ok node =>
          rw [hfollow, hnew node hfollow] at hfile
          exact absurd ((ih _ hrest contents).mp hfile) (foldlM_follow_missing hnone pieces contents)
      · intro hfile
        cases hfile

/-- Names that stand for something go on standing for it. -/
def Extends (tree after : Tree) : Prop :=
  ∀ number name node, tree.node? number name = some node → after.node? number name = some node

/-- In a tree all names stand for what they do. -/
theorem Extends.refl (tree : Tree) : tree.Extends tree := fun _ _ _ hnode => hnode

/-- Names that go on twice go on. -/
theorem Extends.trans {tree middle after : Tree} (h : tree.Extends middle)
    (h' : middle.Extends after) : tree.Extends after :=
  fun number name node hnode => h' number name node (h number name node hnode)

/-- Making a folder keeps what names stand for. -/
theorem extends_of_makeFolder {tree after : Tree} {path : Path}
    (h : tree.makeFolder path = .ok after) : tree.Extends after := by
  intro number name node hnode
  obtain ⟨place, folder, added, hfolder, hfree, -, hfolders⟩ := makeFolder_eq_ok h
  have hsize : (tree.folders.modify place (·.put added (.folder tree.folders.size))).size =
      tree.folders.size := Array.size_modify
  obtain ⟨found, hfound, hnode⟩ := Option.bind_eq_some_iff.mp hnode
  have hold : number ≠ tree.folders.size := by
    rintro rfl
    simp at hfound
  rw [node?, hfolders, Array.getElem?_push, hsize, if_neg hold, Array.getElem?_modify, hfound]
  split_ifs with hplace
  · subst hplace
    obtain rfl := Option.some.inj (hfolder.symm.trans hfound)
    have hname : name ≠ added := by
      rintro rfl
      rw [hfree] at hnode
      cases hnode
    rw [Option.map_some, Option.bind_some, Folder.node?_put, if_neg hname]
    exact hnode
  · exact hnode

end Tree

/-! ## Scripts -/

/-- Whether an operation only looks or makes a folder. -/
def Operation.adds : Operation → Bool
  | write _ _ | remove _ | rename _ _ => false
  | _ => true

/-- An operation that only looks or makes a folder leaves the tree as it was, or makes one. -/
theorem Operation.apply_of_adds {operation : Operation} (h : operation.adds = true) (tree : Tree) :
    (operation.apply tree).2 = tree ∨
      ∃ path, tree.makeFolder path = .ok (operation.apply tree).2 := by
  cases operation with
  | read path => exact Or.inl rfl
  | write path contents => cases h
  | remove path => cases h
  | rename source target => cases h
  | list folder => exact Or.inl rfl
  | makeFolder folder =>
    rw [apply]
    cases hmake : tree.makeFolder folder with
    | error trouble => exact Or.inl rfl
    | ok after => exact Or.inr ⟨folder, hmake⟩
  | isFolder path => exact Or.inl rfl
  | whereabouts => exact Or.inl rfl

namespace Script

/-- A script only looks and makes folders, whatever the tree. -/
def Adds {α : Type} (script : Script α) : Prop :=
  ∀ tree : Tree, script.Performs (·.adds = true) tree

/-- A finished script does nothing. -/
theorem adds_pure {α : Type} (result : α) : (pure result : Script α).Adds :=
  performs_pure _ result

/-- A single operation may look or make a folder. -/
theorem adds_perform {operation : Operation} (h : operation.adds = true) : (perform operation).Adds :=
  performs_perform h

/-- Scripts in a row only look and make folders if each does. -/
theorem Adds.bind {α β : Type} {script : Script α} {next : α → Script β} (h : script.Adds)
    (hnext : ∀ result, (next result).Adds) : (script >>= next).Adds :=
  fun tree => (h tree).bind (hnext _ _)

/-- Making sure of a folder makes at most a folder. -/
theorem adds_ensureFolder (path : Path) : (ensureFolder path).Adds := by
  refine (adds_perform rfl).bind fun answer => ?_
  rcases answer with trouble | _
  · exact (adds_perform rfl).bind fun found => adds_pure _
  · exact adds_pure _

/-- Making the first folder that can be made makes folders only. -/
theorem adds_makeFirst (left paths : List Path) : (makeFirst left paths).Adds := by
  induction paths generalizing left with
  | nil => exact adds_pure _
  | cons path paths ih =>
    rw [makeFirst]
    split_ifs
    · exact adds_pure _
    · refine (adds_ensureFolder path).bind fun answer => ?_
      rcases answer with (_ | _) | _
      · exact ih _
      · exact adds_pure _
      · exact adds_pure _

/-- Making folders one after another makes folders only. -/
theorem adds_makeAll (paths : List Path) : (makeAll paths).Adds := by
  induction paths with
  | nil => exact adds_pure _
  | cons path paths ih =>
    refine (adds_ensureFolder path).bind fun answer => ?_
    rcases answer with trouble | _
    · exact adds_pure _
    · exact ih

/-- Making a folder and those on the way to it makes folders only. -/
theorem adds_makeFolders (path : Path) : (makeFolders path).Adds := by
  refine (adds_makeFirst [] path.ancestors).bind fun answer => ?_
  rcases answer with trouble | left
  · exact adds_pure _
  · exact adds_makeAll left

/-- A script that only looks and makes folders leaves the same files at the ends of all ways that never
lead back. -/
theorem Adds.sameFiles {α : Type} {script : Script α} (h : script.Adds) (tree : Tree) :
    tree.SameFiles (script.run tree).2 := by
  refine (h tree).related Tree.SameFiles.refl Tree.SameFiles.trans fun operation hadds other => ?_
  rcases Operation.apply_of_adds hadds other with hsame | ⟨path, hmake⟩
  · rw [hsame]
    exact .refl other
  · exact Tree.sameFiles_of_makeFolder hmake

/-- A script that only looks and makes folders keeps what names stand for. -/
theorem Adds.extends {α : Type} {script : Script α} (h : script.Adds) (tree : Tree) :
    tree.Extends (script.run tree).2 := by
  refine (h tree).related Tree.Extends.refl Tree.Extends.trans fun operation hadds other => ?_
  rcases Operation.apply_of_adds hadds other with hsame | ⟨path, hmake⟩
  · rw [hsame]
    exact .refl other
  · exact Tree.extends_of_makeFolder hmake

end Script

end OriginMap.Files
