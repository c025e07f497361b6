import OriginMap.Proofs.Files.Confinement

/-!
# What a script does on its way

A script performs operations one after another on the tree that each leaves. If all of them only look, or
work on files under permitted names of one folder, then whatever has changed at the end has such a name
in that folder.
-/

namespace OriginMap.Files

/-! ## Operations of scripts -/

namespace Script

/-- The operations that a script performs on a tree, one after another. -/
def operations {α : Type} (script : Script α) (tree : Tree) : List Operation :=
  match script with
  | .done _ => []
  | .step operation next =>
    operation :: (next (operation.apply tree).1).operations (operation.apply tree).2

/-- A finished script performs no operation. -/
@[simp] theorem operations_pure {α : Type} (result : α) (tree : Tree) :
    (pure result : Script α).operations tree = [] := rfl

/-- A single operation is performed. -/
@[simp] theorem operations_perform (operation : Operation) (tree : Tree) :
    (perform operation).operations tree = [operation] := rfl

/-- Scripts in a row perform their operations in a row. -/
theorem operations_bind {α β : Type} (script : Script α) (next : α → Script β) (tree : Tree) :
    (script >>= next).operations tree =
      script.operations tree ++ (next (script.run tree).1).operations (script.run tree).2 := by
  show (script.bind next).operations tree = _
  induction script generalizing tree with
  | done result => rfl
  | step operation rest ih => exact congrArg (operation :: ·) (ih _ _)

/-- All operations that a script performs on a tree are allowed. -/
def Performs {α : Type} (allowed : Operation → Prop) (script : Script α) (tree : Tree) : Prop :=
  ∀ operation ∈ script.operations tree, allowed operation

variable {allowed : Operation → Prop}

/-- A finished script performs none that is not. -/
theorem performs_pure {α : Type} (allowed : Operation → Prop) (result : α) (tree : Tree) :
    (pure result : Script α).Performs allowed tree := by
  intro operation hoperation
  cases hoperation

/-- A single operation that is allowed may be performed. -/
theorem performs_perform {operation : Operation} (h : allowed operation) (tree : Tree) :
    (perform operation).Performs allowed tree := by
  intro other hother
  rwa [List.mem_singleton.mp hother]

/-- Scripts in a row perform what is allowed if each does, on the tree that it meets. -/
theorem Performs.bind {α β : Type} {script : Script α} {next : α → Script β} {tree : Tree}
    (h : script.Performs allowed tree)
    (hnext : (next (script.run tree).1).Performs allowed (script.run tree).2) :
    (script >>= next).Performs allowed tree := by
  intro operation hoperation
  rw [operations_bind] at hoperation
  rcases List.mem_append.mp hoperation with hoperation | hoperation
  · exact h operation hoperation
  · exact hnext operation hoperation

/-- What each allowed operation keeps is kept from the start to the end. -/
theorem Performs.related {α : Type} {script : Script α} {tree : Tree}
    (h : script.Performs allowed tree) {Kept : Tree → Tree → Prop}
    (hrefl : ∀ tree, Kept tree tree)
    (htrans : ∀ {tree middle after}, Kept tree middle → Kept middle after → Kept tree after)
    (hkept : ∀ operation, allowed operation → ∀ tree : Tree, Kept tree (operation.apply tree).2) :
    Kept tree (script.run tree).2 := by
  induction script generalizing tree with
  | done result => exact hrefl tree
  | step operation next ih =>
    exact htrans (hkept operation (h operation List.mem_cons_self) tree)
      (ih _ fun later hlater => h later (List.mem_cons_of_mem operation hlater))

end Script

/-! ## Trees -/

namespace Tree

variable {root : Path} {permitted : String → Prop} {tree middle after : Tree} {name : String}

/-- A tree comes from another one with the same folders by changes under permitted names of the folder at
a path. -/
structure AlteredAt (root : Path) (permitted : String → Prop) (tree after : Tree) : Prop where
  /-- The folders are the same. -/
  folders : tree.SameFolders after
  /-- What stands for something else has a permitted name in the folder. -/
  altered : ∀ number name, after.node? number name ≠ tree.node? number name →
    permitted name ∧ ∃ folder, tree.Holds root number folder

/-- A tree comes from itself. -/
theorem AlteredAt.refl (root : Path) (permitted : String → Prop) (tree : Tree) :
    AlteredAt root permitted tree tree :=
  ⟨.refl tree, fun _ _ hne => absurd rfl hne⟩

/-- Changes under permitted names may follow one another. -/
theorem AlteredAt.trans (h : AlteredAt root permitted tree middle)
    (h' : AlteredAt root permitted middle after) : AlteredAt root permitted tree after := by
  refine ⟨h.folders.trans h'.folders, fun number name hne => ?_⟩
  by_cases hlater : after.node? number name = middle.node? number name
  · exact h.altered number name (hlater ▸ hne)
  · obtain ⟨hname, folder, hholds⟩ := h'.altered number name hlater
    exact ⟨hname, h.folders.symm.holds hholds⟩

/-- A change to one name of a folder. -/
theorem node?_change_eq {number other : ℕ} {new : Folder → Folder}
    (hnew : ∀ folder key, key ≠ name → (new folder).node? key = folder.node? key) {key : String}
    (hne : (tree.change number new).node? other key ≠ tree.node? other key) :
    other = number ∧ key = name := by
  rw [node?, node?, getElem?_change] at hne
  split at hne
  · next hnumber =>
    refine ⟨hnumber.symm, ?_⟩
    by_contra hkey
    cases hfolder : tree.folders[other]? with
    | none => simp [hfolder] at hne
    | some folder => simp [hfolder, hnew folder key hkey] at hne
  · exact absurd rfl hne

/-- Writing a file under a permitted name. -/
theorem alteredAt_of_write (hname : Path.isName name = true) (hpermitted : permitted name)
    {contents : Bytes} (h : tree.write (root.child name) contents = .ok after) :
    AlteredAt root permitted tree after := by
  obtain ⟨number, folder, hholds⟩ := holds_of_write h
  obtain ⟨-, -, hafter⟩ := (hholds.write_child_eq_ok hname).mp h
  refine ⟨sameFolders_of_write h, fun other key hne => ?_⟩
  rw [hafter] at hne
  obtain ⟨rfl, rfl⟩ := node?_change_eq
    (fun folder key hkey => by rw [Folder.node?_put, if_neg hkey]) hne
  exact ⟨hpermitted, folder, hholds⟩

/-- Removing a file under a permitted name. -/
theorem alteredAt_of_remove (hname : Path.isName name = true) (hpermitted : permitted name)
    (h : tree.remove (root.child name) = .ok after) : AlteredAt root permitted tree after := by
  obtain ⟨number, folder, hholds⟩ := holds_of_remove h
  obtain ⟨-, -, hafter⟩ := (hholds.remove_child_eq_ok hname).mp h
  refine ⟨sameFolders_of_remove h, fun other key hne => ?_⟩
  rw [hafter] at hne
  obtain ⟨rfl, rfl⟩ := node?_change_eq
    (fun folder key hkey => by rw [Folder.node?_erase, if_neg hkey]) hne
  exact ⟨hpermitted, folder, hholds⟩

/-- Renaming a file from a permitted name to another. -/
theorem alteredAt_of_rename {target : String} (hname : Path.isName name = true)
    (htarget : Path.isName target = true) (hpermitted : permitted name)
    (hpermittedTarget : permitted target)
    (h : tree.rename (root.child name) (root.child target) = .ok after) :
    AlteredAt root permitted tree after := by
  obtain ⟨contents, rest, -, hremove, hwrite⟩ := rename_eq_ok.mp h
  exact (alteredAt_of_remove hname hpermitted hremove).trans
    (alteredAt_of_write htarget hpermittedTarget hwrite)

/-- A change that may fail is one under permitted names if it is when it succeeds. -/
theorem alteredAt_settle {result : Except Trouble Tree}
    (h : ∀ after, result = .ok after → AlteredAt root permitted tree after) :
    AlteredAt root permitted tree (tree.settle result).2 := by
  cases result with
  | error trouble => exact .refl root permitted tree
  | ok after => exact h after rfl

end Tree

/-! ## Operations -/

/-- An operation only looks, or it writes, removes or renames files under permitted names of a folder. -/
inductive Operation.WorksOn (root : Path) (permitted : String → Prop) : Operation → Prop
  /-- It reads a file. -/
  | read (path : Path) : WorksOn root permitted (.read path)
  /-- It lists a folder. -/
  | list (folder : Path) : WorksOn root permitted (.list folder)
  /-- It asks whether there is a folder. -/
  | isFolder (path : Path) : WorksOn root permitted (.isFolder path)
  /-- It asks for the working directory. -/
  | whereabouts : WorksOn root permitted .whereabouts
  /-- It writes a file under a permitted name. -/
  | write (name : String) (contents : Bytes) (hname : permitted name) :
    WorksOn root permitted (.write (root.child name) contents)
  /-- It removes a file under a permitted name. -/
  | remove (name : String) (hname : permitted name) :
    WorksOn root permitted (.remove (root.child name))
  /-- It renames a file from a permitted name to another. -/
  | rename (name target : String) (hname : permitted name) (htarget : permitted target) :
    WorksOn root permitted (.rename (root.child name) (root.child target))

variable {root : Path} {permitted : String → Prop}

/-- What an operation permits to itself, it does under more names. -/
theorem Operation.WorksOn.mono {operation : Operation} (h : operation.WorksOn root permitted)
    {more : String → Prop} (hmore : ∀ name, permitted name → more name) :
    operation.WorksOn root more := by
  cases h with
  | read path => exact .read path
  | list folder => exact .list folder
  | isFolder path => exact .isFolder path
  | whereabouts => exact .whereabouts
  | write name contents hname => exact .write name contents (hmore name hname)
  | remove name hname => exact .remove name (hmore name hname)
  | rename name target hname htarget =>
    exact .rename name target (hmore name hname) (hmore target htarget)

/-- An operation changes what has a permitted name only. -/
theorem Operation.WorksOn.alteredAt {operation : Operation} (h : operation.WorksOn root permitted)
    (hnames : ∀ name, permitted name → Path.isName name = true) (tree : Tree) :
    Tree.AlteredAt root permitted tree (operation.apply tree).2 := by
  cases h with
  | read path => exact .refl root permitted tree
  | list folder => exact .refl root permitted tree
  | isFolder path => exact .refl root permitted tree
  | whereabouts => exact .refl root permitted tree
  | write name contents hname =>
    exact Tree.alteredAt_settle fun _ => Tree.alteredAt_of_write (hnames name hname) hname
  | remove name hname =>
    exact Tree.alteredAt_settle fun _ => Tree.alteredAt_of_remove (hnames name hname) hname
  | rename name target hname htarget =>
    exact Tree.alteredAt_settle fun _ =>
      Tree.alteredAt_of_rename (hnames name hname) (hnames target htarget) hname htarget

/-- An operation that works on some names changes nothing but what they stand for. -/
theorem Operation.WorksOn.sameBeside {operation : Operation} {names : List String}
    (h : operation.WorksOn root (· ∈ names)) (hnames : ∀ name ∈ names, Path.isName name = true)
    (tree : Tree) : tree.SameBeside names root (operation.apply tree).2 := by
  cases h with
  | read path => exact .refl names root tree
  | list folder => exact .refl names root tree
  | isFolder path => exact .refl names root tree
  | whereabouts => exact .refl names root tree
  | write name contents hname =>
    exact Tree.sameBeside_settle fun _ => Tree.sameBeside_of_write (hnames name hname) hname
  | remove name hname =>
    exact Tree.sameBeside_settle fun _ => Tree.sameBeside_of_remove (hnames name hname) hname
  | rename name target hname htarget =>
    exact Tree.sameBeside_settle fun _ =>
      Tree.sameBeside_of_rename (hnames name hname) (hnames target htarget) hname htarget

/-! ## Scripts -/

namespace Script

/-- On a tree, a script only looks and works on files under permitted names of a folder. -/
def WorksOn {α : Type} (root : Path) (permitted : String → Prop) (script : Script α) (tree : Tree) :
    Prop :=
  script.Performs (Operation.WorksOn root permitted) tree

/-- What a script permits to itself, it does under more names. -/
theorem WorksOn.mono {α : Type} {script : Script α} {tree : Tree}
    (h : script.WorksOn root permitted tree) {more : String → Prop}
    (hmore : ∀ name, permitted name → more name) : script.WorksOn root more tree :=
  fun operation hoperation => (h operation hoperation).mono hmore

/-- What has changed after a script that works on permitted names has such a name. -/
theorem WorksOn.alteredAt {α : Type} {script : Script α} {tree : Tree}
    (h : script.WorksOn root permitted tree)
    (hnames : ∀ name, permitted name → Path.isName name = true) :
    Tree.AlteredAt root permitted tree (script.run tree).2 :=
  h.related (.refl root permitted) .trans fun _ hworks => hworks.alteredAt hnames

/-- A script that works on some names changes nothing but what they stand for. -/
theorem WorksOn.sameBeside {α : Type} {script : Script α} {tree : Tree} {names : List String}
    (h : script.WorksOn root (· ∈ names) tree) (hnames : ∀ name ∈ names, Path.isName name = true) :
    tree.SameBeside names root (script.run tree).2 :=
  h.related (.refl names root) .trans fun _ hworks => hworks.sameBeside hnames

/-- On a tree, a script is confined to permitted names of a folder: on its way it only looks and works on
files under such names, and at the end nothing else has changed. -/
structure Confined {α : Type} (root : Path) (permitted : String → Prop) (script : Script α)
    (tree : Tree) : Prop where
  /-- What it does on its way. -/
  worksOn : script.WorksOn root permitted tree
  /-- What has changed at the end. -/
  alteredAt : Tree.AlteredAt root permitted tree (script.run tree).2

/-- A script that works on permitted names is confined to them. -/
theorem WorksOn.confined {α : Type} {script : Script α} {tree : Tree}
    (h : script.WorksOn root permitted tree)
    (hnames : ∀ name, permitted name → Path.isName name = true) :
    script.Confined root permitted tree :=
  ⟨h, h.alteredAt hnames⟩

end Script

end OriginMap.Files
