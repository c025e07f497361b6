import Mathlib.Data.Nat.Notation
import OriginMap.Proofs.FileName
import OriginMap.Proofs.Files.Interruption

/-!
# What the disk does to its folder

Storing and deleting change the data directory in the files of one key only. For each operation this
module says what the folder is after it succeeded, what it may be after it was cut off, and that it
succeeds where no folder stands in its way. Whatever cuts an operation off, the folder either is as it
was, or has no sidecar for the key, or is that of the whole operation.
-/

namespace OriginMap.Disk

open Files

/-! ## A data directory -/

/-- The data directory below the root that is there in the tree `bareTree`. -/
def bareDisk : Disk := ⟨["", "data"]⟩

/-- A tree with an empty data directory. -/
def bareTree : Tree := ⟨#[⟨0, [("data", .folder 1)]⟩, ⟨0, []⟩], .root⟩

/-- The data directory is empty. -/
theorem folderAt_bareTree : bareTree.folderAt bareDisk.root = .ok ⟨0, []⟩ := by
  rfl

/-! ## Changes to a folder -/

/-- A folder in which a file was written beside its place and renamed into it. -/
def replaced (folder : Folder) (name : String) (contents : Bytes) : Folder :=
  ((folder.put (name ++ draftSuffix) (.file contents)).erase (name ++ draftSuffix)).put name
    (.file contents)

/-- A folder in which data and a sidecar were stored under a key. -/
def stored (folder : Folder) (key : Key) (data : Bytes) (sidecar : Sidecar) : Folder :=
  replaced (replaced (folder.erase (sidecarName key)) (dataName key) data) (sidecarName key)
    sidecar.render

/-- A folder from which the data and the sidecar of a key were deleted. -/
def deleted (folder : Folder) (key : Key) : Folder :=
  (folder.erase (sidecarName key)).erase (dataName key)

/-- Two folders differ in the files of a key only. -/
def SameBut (key : Key) (folder other : Folder) : Prop :=
  ∀ name, (∀ kind, name ≠ fileName key kind) → other.node? name = folder.node? name

/-- A name is not that of its draft. -/
theorem ne_append_draftSuffix (name : String) : name ≠ name ++ draftSuffix := by
  intro h
  have hlist := congrArg (List.length ∘ String.toList) h
  simp [draftSuffix] at hlist

/-- What the names in a folder stand for after a file was replaced. -/
@[simp] theorem node?_replaced (folder : Folder) (name other : String) (contents : Bytes) :
    (replaced folder name contents).node? other =
      if other = name then some (.file contents)
      else if other = name ++ draftSuffix then none
      else folder.node? other := by
  rw [replaced, Folder.node?_put, Folder.node?_erase, Folder.node?_put]
  split
  · rfl
  · split <;> rfl

/-- The names of a key's files are apart. -/
theorem fileName_ne (key : Key) (kind kind' : FileKind) (h : kind ≠ kind') :
    fileName key kind ≠ fileName key kind' :=
  fun hname => h (fileName_inj hname).2

/-- What the names of the key stand for after data and a sidecar were stored under it. -/
theorem node?_stored (folder : Folder) (key : Key) (data : Bytes) (sidecar : Sidecar)
    (kind : FileKind) : (stored folder key data sidecar).node? (fileName key kind) =
      match kind with
      | .data => some (.file data)
      | .sidecar => some (.file sidecar.render)
      | .dataDraft | .sidecarDraft => none := by
  have hsame (kind kind' : FileKind) : fileName key kind = fileName key kind' ↔ kind = kind' :=
    ⟨fun h => (fileName_inj h).2, fun h => by rw [h]⟩
  have hdata : dataName key = fileName key .data := rfl
  have hsidecar : sidecarName key = fileName key .sidecar := rfl
  rw [stored, node?_replaced, node?_replaced, Folder.node?_erase, dataName_append,
    sidecarName_append, hdata, hsidecar]
  cases kind <;> simp [hsame]

section SameBut

variable {key : Key} {folder other : Folder}

/-- A folder differs from itself in no file. -/
theorem SameBut.refl (key : Key) (folder : Folder) : SameBut key folder folder := fun _ _ => rfl

/-- A file of the key may be removed. -/
theorem SameBut.erase (h : SameBut key folder other) (kind : FileKind) :
    SameBut key folder (other.erase (fileName key kind)) := by
  intro name hname
  rw [Folder.node?_erase, if_neg (hname kind), h name hname]

/-- A file of the key may be written. -/
theorem SameBut.put (h : SameBut key folder other) (kind : FileKind) (node : Node) :
    SameBut key folder (other.put (fileName key kind) node) := by
  intro name hname
  rw [Folder.node?_put, if_neg (hname kind), h name hname]

/-- The data of the key may be replaced. -/
theorem SameBut.replaceData (h : SameBut key folder other) (data : Bytes) :
    SameBut key folder (replaced other (dataName key) data) := by
  rw [replaced, dataName_append]
  exact ((h.put .dataDraft _).erase .dataDraft).put .data _

/-- The sidecar of the key may be replaced. -/
theorem SameBut.replaceSidecar (h : SameBut key folder other) (contents : Bytes) :
    SameBut key folder (replaced other (sidecarName key) contents) := by
  rw [replaced, sidecarName_append]
  exact ((h.put .sidecarDraft _).erase .sidecarDraft).put .sidecar _

/-- Storing changes the files of the key only. -/
theorem sameBut_stored (folder : Folder) (key : Key) (data : Bytes) (sidecar : Sidecar) :
    SameBut key folder (stored folder key data sidecar) :=
  (((SameBut.refl key folder).erase .sidecar).replaceData data).replaceSidecar sidecar.render

/-- Deleting changes the files of the key only. -/
theorem sameBut_deleted (folder : Folder) (key : Key) : SameBut key folder (deleted folder key) :=
  ((SameBut.refl key folder).erase .sidecar).erase .data

end SameBut

/-- A name that stands for nothing may be erased. -/
theorem erase_of_node?_eq_none {folder : Folder} {name : String} (h : folder.node? name = none) :
    folder.erase name = folder := by
  have hnodes : folder.nodes.filter (fun item => item.1 ≠ name) = folder.nodes := by
    rw [List.filter_eq_self]
    intro item hitem
    have hne : (name != item.1) = true := List.lookup_eq_none_iff.mp h item hitem
    simpa using (bne_iff_ne.mp hne).symm
  rw [Folder.erase, hnodes]

/-! ## Runs -/

/-- What removing a file that may be missing comes to. -/
theorem run_removeIfPresent (path : Path) (tree : Tree) :
    (removeIfPresent path).run tree =
      match tree.remove path with
      | .ok after => (.ok true, after)
      | .error .missing => (.ok false, tree)
      | .error .refused => (.error (.io path .refused), tree) := by
  rw [removeIfPresent, Script.run_bind, Script.run_remove]
  cases tree.remove path with
  | ok after => rfl
  | error trouble => cases trouble <;> rfl

/-- What writing a file beside its place and renaming it comes to. -/
theorem run_writeWhole (disk : Disk) (name : String) (contents : Bytes) (tree : Tree) :
    (disk.writeWhole name contents).run tree =
      match tree.write (disk.path (name ++ draftSuffix)) contents with
      | .error trouble => (.error (.io (disk.path (name ++ draftSuffix)) trouble), tree)
      | .ok middle =>
        match middle.rename (disk.path (name ++ draftSuffix)) (disk.path name) with
        | .error trouble => (.error (.io (disk.path name) trouble), middle)
        | .ok after => (.ok (), after) := by
  rw [writeWhole, Script.run_bind, Script.run_write]
  cases tree.write (disk.path (name ++ draftSuffix)) contents with
  | error trouble => rfl
  | ok middle =>
    simp only [Tree.settle]
    rw [Script.run_bind, Script.run_rename]
    cases middle.rename (disk.path (name ++ draftSuffix)) (disk.path name) <;> rfl

/-- What storing comes to. -/
theorem run_write (disk : Disk) (key : Key) (data : Bytes) (sidecar : Sidecar) (tree : Tree) :
    (disk.write key data sidecar).run tree =
      match (removeIfPresent (disk.sidecarPath key)).run tree with
      | (.error e, after) => (.error e, after)
      | (.ok _, bare) =>
        match (disk.writeWhole (dataName key) data).run bare with
        | (.error e, after) => (.error e, after)
        | (.ok (), half) => (disk.writeWhole (sidecarName key) sidecar.render).run half := by
  rw [write, Script.run_bind]
  rcases (removeIfPresent (disk.sidecarPath key)).run tree with ⟨_ | _, bare⟩
  · rfl
  · simp only
    rw [Script.run_bind]
    rcases (disk.writeWhole (dataName key) data).run bare with ⟨_ | _, half⟩ <;> rfl

/-- What deleting comes to. -/
theorem run_delete (disk : Disk) (key : Key) (tree : Tree) :
    (disk.delete key).run tree =
      match (removeIfPresent (disk.sidecarPath key)).run tree with
      | (.error e, after) => (.error e, after)
      | (.ok existed, bare) =>
        match (removeIfPresent (disk.dataPath key)).run bare with
        | (.error e, after) => (.error e, after)
        | (.ok _, after) => (.ok existed, after) := by
  rw [delete, Script.run_bind]
  rcases (removeIfPresent (disk.sidecarPath key)).run tree with ⟨_ | _, bare⟩
  · rfl
  · simp only
    rw [Script.run_bind]
    rcases (removeIfPresent (disk.dataPath key)).run bare with ⟨_ | _, after⟩ <;> rfl

/-- The sidecar that can be read at a path, if there is one. -/
def sidecarAt? (tree : Tree) (path : Path) : Option Sidecar :=
  match tree.read path with
  | .error _ => none
  | .ok contents => (Sidecar.read contents).toOption

/-- A sidecar can be read at a path exactly if the contents of a file there can be read as it. -/
theorem sidecarAt?_eq_some {tree : Tree} {path : Path} {sidecar : Sidecar} :
    sidecarAt? tree path = some sidecar ↔
      ∃ contents, tree.read path = .ok contents ∧ Sidecar.read contents = .ok sidecar := by
  rw [sidecarAt?]
  cases tree.read path with
  | error trouble => simp
  | ok contents =>
    cases hread : Sidecar.read contents with
    | error fault => simp [hread, Except.toOption]
    | ok found => simp [hread, Except.toOption]

/-- What reading a sidecar comes to. -/
theorem run_readSidecarAt (path : Path) (tree : Tree) :
    (readSidecarAt path).run tree =
      (match tree.read path with
        | .error .missing => .ok none
        | .error .refused => .error (.io path .refused)
        | .ok contents =>
          match Sidecar.read contents with
          | .ok sidecar => .ok (some sidecar)
          | .error fault => .error (.corruptSidecar path fault), tree) := by
  rw [readSidecarAt, Script.run_bind, Script.run_read]
  cases tree.read path with
  | error trouble => cases trouble <;> rfl
  | ok contents =>
    simp only
    cases Sidecar.read contents <;> rfl

/-- What reading a key's sidecar and data comes to. -/
theorem run_read (disk : Disk) (key : Key) (tree : Tree) :
    (disk.read key).run tree =
      match (disk.readSidecar key).run tree with
      | (.error e, after) => (.error e, after)
      | (.ok none, after) => (.ok none, after)
      | (.ok (some sidecar), after) =>
        (match after.read (disk.dataPath key) with
          | .error .missing => .ok none
          | .error .refused => .error (.io (disk.dataPath key) .refused)
          | .ok data =>
            if Sha256.hexDigest data = sidecar.sha256 then .ok (some (sidecar, data))
            else .ok none, after) := by
  rw [read, Script.run_bind]
  rcases (disk.readSidecar key).run tree with ⟨_ | _ | sidecar, after⟩
  · rfl
  · rfl
  · simp only
    rw [Script.run_bind, Script.run_read]
    cases after.read (disk.dataPath key) with
    | error trouble => cases trouble <;> rfl
    | ok data =>
      simp only
      split <;> rfl

/-- Reading a key changes nothing. -/
theorem run_read_snd (disk : Disk) (key : Key) (tree : Tree) :
    ((disk.read key).run tree).2 = tree := by
  rw [run_read, readSidecar, run_readSidecarAt]
  cases tree.read (disk.sidecarPath key) with
  | error trouble => cases trouble <;> rfl
  | ok contents =>
    simp only
    cases Sidecar.read contents <;> rfl

/-- A key is read as a sidecar and data exactly if both can be read and the digest of the data is that of
the sidecar. -/
theorem run_read_eq_some {disk : Disk} {key : Key} {tree : Tree} {sidecar : Sidecar} {data : Bytes} :
    ((disk.read key).run tree).1 = .ok (some (sidecar, data)) ↔
      ∃ contents, tree.read (disk.sidecarPath key) = .ok contents ∧
        Sidecar.read contents = .ok sidecar ∧ tree.read (disk.dataPath key) = .ok data ∧
          Sha256.hexDigest data = sidecar.sha256 := by
  rw [run_read, readSidecar, run_readSidecarAt]
  cases hcontents : tree.read (disk.sidecarPath key) with
  | error trouble => cases trouble <;> simp
  | ok contents =>
    cases hsidecar : Sidecar.read contents with
    | error fault => simp [hsidecar]
    | ok found =>
      simp only [Except.ok.injEq, exists_eq_left', hsidecar]
      cases hdata : tree.read (disk.dataPath key) with
      | error trouble => cases trouble <;> simp
      | ok stored =>
        simp only [Except.ok.injEq]
        by_cases hdigest : Sha256.hexDigest stored = found.sha256
        · rw [if_pos hdigest]
          constructor
          · intro h
            cases h
            exact ⟨rfl, rfl, hdigest⟩
          · rintro ⟨rfl, rfl, -⟩
            rfl
        · rw [if_neg hdigest]
          constructor
          · intro h
            cases h
          · rintro ⟨rfl, rfl, hsame⟩
            exact absurd hsame hdigest

/-- Of some names those are read whose sidecars can be read. -/
theorem run_readAll (disk : Disk) (names : List String) (tree : Tree) :
    (disk.readAll names).run tree =
      (names.filterMap fun name => sidecarAt? tree (disk.path name), tree) := by
  induction names with
  | nil => rfl
  | cons name names ih =>
    rw [readAll, Script.run_bind, run_readSidecarAt, Script.run_bind]
    simp only [ih, List.filterMap_cons, sidecarAt?]
    cases tree.read (disk.path name) with
    | error trouble => cases trouble <;> rfl
    | ok contents =>
      simp only
      cases Sidecar.read contents <;> rfl

/-- What listing comes to. -/
theorem run_list (disk : Disk) (tree : Tree) :
    disk.list.run tree =
      (match tree.list disk.root with
        | .error trouble => .error (.io disk.root trouble)
        | .ok names =>
          .ok ((names.filter isSidecarName).filterMap fun name => sidecarAt? tree (disk.path name)),
        tree) := by
  rw [list, Script.run_bind, Script.run_list]
  cases tree.list disk.root with
  | error trouble => rfl
  | ok names =>
    simp only
    rw [Script.run_bind, run_readAll]
    rfl

/-! ## Success -/

section Success

variable {disk : Disk} {tree after : Tree} {number : ℕ} {folder : Folder} {name : String} {key : Key}
  {data : Bytes} {sidecar : Sidecar}

/-- Where no folder stands, a file that may be missing is removed. -/
theorem run_removeIfPresent_eq_erase (h : tree.Holds disk.root number folder)
    (hname : Path.isName name = true) (hfits : (disk.path name).fits = true)
    (hfree : ∀ inner, folder.node? name ≠ some (.folder inner)) :
    (removeIfPresent (disk.path name)).run tree =
      (.ok (folder.node? name).isSome, tree.change number (·.erase name)) := by
  rw [run_removeIfPresent]
  cases hnode : folder.node? name with
  | none =>
    have hremove : tree.remove (disk.path name) = .error .missing :=
      (h.remove_child_eq_missing hname).mpr ⟨hfits, hnode⟩
    rw [hremove, Tree.change_eq_self h.folder (Folder.erase_eq_self hnode)]
    rfl
  | some node =>
    cases node with
    | folder inner => exact absurd hnode (hfree inner)
    | file contents =>
      have hremove : tree.remove (disk.path name) = .ok (tree.change number (·.erase name)) :=
        (h.remove_child_eq_ok hname).mpr ⟨hfits, ⟨contents, hnode⟩, rfl⟩
      rw [hremove]
      rfl

/-- Removing a file that may be missing leaves a folder without its name. -/
theorem of_run_removeIfPresent (h : tree.Holds disk.root number folder)
    (hname : Path.isName name = true) {existed : Bool}
    (hrun : (removeIfPresent (disk.path name)).run tree = (.ok existed, after)) :
    existed = (folder.node? name).isSome ∧ after.Holds disk.root number (folder.erase name) := by
  rw [run_removeIfPresent] at hrun
  cases hremove : tree.remove (disk.path name) with
  | ok changed =>
    simp only [hremove, Prod.mk.injEq, Except.ok.injEq] at hrun
    obtain ⟨rfl, rfl⟩ := hrun
    obtain ⟨_, ⟨contents, hnode⟩, rfl⟩ := (h.remove_child_eq_ok hname).mp hremove
    exact ⟨by simp [hnode], h.erase hnode⟩
  | error trouble =>
    cases trouble with
    | missing =>
      simp only [hremove, Prod.mk.injEq, Except.ok.injEq] at hrun
      obtain ⟨rfl, rfl⟩ := hrun
      obtain ⟨_, hnode⟩ := (h.remove_child_eq_missing hname).mp hremove
      exact ⟨by simp [hnode], by rwa [erase_of_node?_eq_none hnode]⟩
    | refused => simp [hremove] at hrun

/-- Writing the draft of a file and renaming it replaces the file. -/
theorem of_write_rename (h : tree.Holds disk.root number folder) (hname : Path.isName name = true)
    (hdraft : Path.isName (name ++ draftSuffix) = true) {contents : Bytes} {middle : Tree}
    (hwrite : tree.write (disk.path (name ++ draftSuffix)) contents = .ok middle)
    (hrename : middle.rename (disk.path (name ++ draftSuffix)) (disk.path name) = .ok after) :
    after.Holds disk.root number (replaced folder name contents) := by
  obtain ⟨_, hfree, rfl⟩ := (h.write_child_eq_ok hdraft).mp hwrite
  have hmiddle := h.put hfree contents
  obtain ⟨found, rest, hread, hremove, hwrite'⟩ := Tree.rename_eq_ok.mp hrename
  obtain ⟨_, hfound⟩ := (hmiddle.read_child_eq_ok hdraft).mp hread
  rw [Folder.node?_put, if_pos rfl] at hfound
  obtain rfl : contents = found := by simpa using hfound
  obtain ⟨_, ⟨_, hnode⟩, rfl⟩ := (hmiddle.remove_child_eq_ok hdraft).mp hremove
  have hrest := hmiddle.erase hnode
  obtain ⟨_, hfree', rfl⟩ := (hrest.write_child_eq_ok hname).mp hwrite'
  exact hrest.put hfree' contents

/-- A file that was replaced was written beside its place and renamed. -/
theorem write_rename_of_run {contents : Bytes}
    (hrun : (disk.writeWhole name contents).run tree = (.ok (), after)) :
    ∃ middle, tree.write (disk.path (name ++ draftSuffix)) contents = .ok middle ∧
      middle.rename (disk.path (name ++ draftSuffix)) (disk.path name) = .ok after := by
  rw [run_writeWhole] at hrun
  cases hwrite : tree.write (disk.path (name ++ draftSuffix)) contents with
  | error trouble => simp [hwrite] at hrun
  | ok middle =>
    rw [hwrite] at hrun
    cases hrename : middle.rename (disk.path (name ++ draftSuffix)) (disk.path name) with
    | error trouble => simp [hrename] at hrun
    | ok changed =>
      simp only [hrename, Prod.mk.injEq, true_and] at hrun
      subst hrun
      exact ⟨middle, rfl, hrename⟩

/-- Writing a file beside its place and renaming it replaces the file. -/
theorem of_run_writeWhole (h : tree.Holds disk.root number folder) (hname : Path.isName name = true)
    (hdraft : Path.isName (name ++ draftSuffix) = true) {contents : Bytes}
    (hrun : (disk.writeWhole name contents).run tree = (.ok (), after)) :
    after.Holds disk.root number (replaced folder name contents) := by
  obtain ⟨middle, hwrite, hrename⟩ := write_rename_of_run hrun
  exact of_write_rename h hname hdraft hwrite hrename

/-- The names that storing under a key uses can name something in a folder. -/
theorem isName_names (key : Key) :
    Path.isName (dataName key) = true ∧ Path.isName (dataName key ++ draftSuffix) = true ∧
      Path.isName (sidecarName key) = true ∧
      Path.isName (sidecarName key ++ draftSuffix) = true := by
  rw [dataName_append, sidecarName_append]
  exact ⟨isName_fileName key .data, isName_fileName key .dataDraft, isName_fileName key .sidecar,
    isName_fileName key .sidecarDraft⟩

/-- Storing leaves the folder with the data and the sidecar. -/
theorem of_run_write (h : tree.Holds disk.root number folder)
    (hrun : (disk.write key data sidecar).run tree = (.ok (), after)) :
    after.Holds disk.root number (stored folder key data sidecar) := by
  obtain ⟨hdata, hdataDraft, hsidecar, hsidecarDraft⟩ := isName_names key
  rw [run_write] at hrun
  rcases hbare : (removeIfPresent (disk.sidecarPath key)).run tree with ⟨_ | existed, bare⟩
  · simp [hbare] at hrun
  · simp only [hbare] at hrun
    have hfirst := (of_run_removeIfPresent h hsidecar hbare).2
    rcases hhalf : (disk.writeWhole (dataName key) data).run bare with ⟨_ | _, half⟩
    · simp [hhalf] at hrun
    · simp only [hhalf] at hrun
      have hsecond := of_run_writeWhole hfirst hdata hdataDraft hhalf
      exact of_run_writeWhole hsecond hsidecar hsidecarDraft hrun

/-- Deleting leaves the folder without the data and the sidecar, and says whether there was a
sidecar. -/
theorem of_run_delete (h : tree.Holds disk.root number folder) {existed : Bool}
    (hrun : (disk.delete key).run tree = (.ok existed, after)) :
    existed = (folder.node? (sidecarName key)).isSome ∧
      after.Holds disk.root number (deleted folder key) := by
  obtain ⟨hdata, _, hsidecar, _⟩ := isName_names key
  rw [run_delete] at hrun
  rcases hbare : (removeIfPresent (disk.sidecarPath key)).run tree with ⟨_ | found, bare⟩
  · simp [hbare] at hrun
  · simp only [hbare] at hrun
    obtain ⟨hfound, hfirst⟩ := of_run_removeIfPresent h hsidecar hbare
    rcases hlast : (removeIfPresent (disk.dataPath key)).run bare with ⟨_ | _, last⟩
    · simp [hlast] at hrun
    · simp only [hlast, Prod.mk.injEq, Except.ok.injEq] at hrun
      obtain ⟨rfl, rfl⟩ := hrun
      exact ⟨hfound, (of_run_removeIfPresent hfirst hdata hlast).2⟩

end Success

/-! ## Cutting off -/

section CutOff

variable {disk : Disk} {tree after : Tree} {number : ℕ} {folder : Folder} {name : String} {key : Key}
  {data : Bytes} {sidecar : Sidecar}

/-- A removal that is cut off leaves the folder as it was or without the name. -/
theorem leaves_removeIfPresent (h : tree.Holds disk.root number folder)
    (hname : Path.isName name = true) (hcut : (removeIfPresent (disk.path name)).Leaves tree after) :
    after.Holds disk.root number folder ∨ after.Holds disk.root number (folder.erase name) := by
  rcases hcut.of_bind with hcut | hcut
  · rcases hcut.of_remove with rfl | hremove
    · exact Or.inl h
    · obtain ⟨_, ⟨_, hnode⟩, rfl⟩ := (h.remove_child_eq_ok hname).mp hremove
      exact Or.inr (h.erase hnode)
  · rw [Script.run_remove] at hcut
    cases hremove : tree.remove (disk.path name) with
    | ok changed =>
      simp only [hremove, Tree.settle] at hcut
      obtain rfl := Script.leaves_pure.mp hcut
      obtain ⟨_, ⟨_, hnode⟩, rfl⟩ := (h.remove_child_eq_ok hname).mp hremove
      exact Or.inr (h.erase hnode)
    | error trouble =>
      have hsame : after = tree := by
        cases trouble <;> simpa [hremove, Tree.settle] using hcut
      exact Or.inl (hsame ▸ h)

/-- A replacement that is cut off leaves the folder as it was, or with some draft, or as after the
whole replacement. -/
theorem leaves_writeWhole (h : tree.Holds disk.root number folder) (hname : Path.isName name = true)
    (hdraft : Path.isName (name ++ draftSuffix) = true) {contents : Bytes}
    (hcut : (disk.writeWhole name contents).Leaves tree after) :
    after.Holds disk.root number folder ∨
      (∃ written, after.Holds disk.root number (folder.put (name ++ draftSuffix) (.file written))) ∨
      after.Holds disk.root number (replaced folder name contents) := by
  rcases hcut.of_bind with hcut | hcut
  · rcases hcut.of_write with rfl | ⟨written, _, hwrite⟩
    · exact Or.inl h
    · obtain ⟨_, hfree, rfl⟩ := (h.write_child_eq_ok hdraft).mp hwrite
      exact Or.inr (Or.inl ⟨written, h.put hfree written⟩)
  · rw [Script.run_write] at hcut
    cases hwrite : tree.write (disk.path (name ++ draftSuffix)) contents with
    | error trouble =>
      simp only [hwrite, Tree.settle] at hcut
      obtain rfl := Script.leaves_pure.mp hcut
      exact Or.inl h
    | ok middle =>
      simp only [hwrite, Tree.settle] at hcut
      have hrenamed (hrename : middle.rename (disk.path (name ++ draftSuffix)) (disk.path name) =
          .ok after) : after.Holds disk.root number (replaced folder name contents) :=
        of_write_rename h hname hdraft hwrite hrename
      obtain ⟨_, hfree, hmiddle⟩ := (h.write_child_eq_ok hdraft).mp hwrite
      have hdrafted := h.put hfree contents
      rw [← hmiddle] at hdrafted
      rcases hcut.of_bind with hcut | hcut
      · rcases hcut.of_rename with rfl | hrename
        · exact Or.inr (Or.inl ⟨contents, hdrafted⟩)
        · exact Or.inr (Or.inr (hrenamed hrename))
      · rw [Script.run_rename] at hcut
        cases hrename : middle.rename (disk.path (name ++ draftSuffix)) (disk.path name) with
        | error trouble =>
          simp only [hrename, Tree.settle] at hcut
          obtain rfl := Script.leaves_pure.mp hcut
          exact Or.inr (Or.inl ⟨contents, hdrafted⟩)
        | ok changed =>
          simp only [hrename, Tree.settle] at hcut
          obtain rfl := Script.leaves_pure.mp hcut
          exact Or.inr (Or.inr (hrenamed hrename))

/-- A storing that is cut off leaves the folder as it was, or without a sidecar of the key, or as after
the whole storing. -/
theorem leaves_write (h : tree.Holds disk.root number folder)
    (hcut : (disk.write key data sidecar).Leaves tree after) :
    ∃ other, after.Holds disk.root number other ∧ SameBut key folder other ∧
      (other = folder ∨ other.node? (sidecarName key) = none ∨
        other = stored folder key data sidecar) := by
  obtain ⟨hdata, hdataDraft, hsidecar, hsidecarDraft⟩ := isName_names key
  have hsame := SameBut.refl key folder
  have hbareSame := hsame.erase .sidecar
  have hhalfSame := hbareSame.replaceData data
  have hnone : (folder.erase (sidecarName key)).node? (sidecarName key) = none := by simp
  have hapart : sidecarName key ≠ dataName key ∧ sidecarName key ≠ dataName key ++ draftSuffix := by
    rw [dataName_append]
    exact ⟨fileName_ne key .sidecar .data (by simp),
      fileName_ne key .sidecar .dataDraft (by simp)⟩
  have hhalfNone : (replaced (folder.erase (sidecarName key)) (dataName key) data).node?
      (sidecarName key) = none := by
    simp [hapart.1, hapart.2]
  rcases hcut.of_bind_ok (fun e => ⟨.error e, rfl⟩) with hcut | ⟨_, bare, hbare, hcut⟩
  · rcases leaves_removeIfPresent h hsidecar hcut with hafter | hafter
    · exact ⟨_, hafter, hsame, Or.inl rfl⟩
    · exact ⟨_, hafter, hbareSame, Or.inr (Or.inl hnone)⟩
  have hfirst := (of_run_removeIfPresent h hsidecar hbare).2
  rcases hcut.of_bind_ok (fun e => ⟨.error e, rfl⟩) with hcut | ⟨_, half, hhalf, hcut⟩
  · rcases leaves_writeWhole hfirst hdata hdataDraft hcut with hafter | ⟨written, hafter⟩ | hafter
    · exact ⟨_, hafter, hbareSame, Or.inr (Or.inl hnone)⟩
    · refine ⟨_, hafter, ?_, Or.inr (Or.inl ?_)⟩
      · rw [dataName_append]
        exact hbareSame.put .dataDraft _
      · rw [Folder.node?_put, if_neg hapart.2, hnone]
    · exact ⟨_, hafter, hhalfSame, Or.inr (Or.inl hhalfNone)⟩
  have hsecond := of_run_writeWhole hfirst hdata hdataDraft hhalf
  rcases leaves_writeWhole hsecond hsidecar hsidecarDraft hcut with
    hafter | ⟨written, hafter⟩ | hafter
  · exact ⟨_, hafter, hhalfSame, Or.inr (Or.inl hhalfNone)⟩
  · refine ⟨_, hafter, ?_, Or.inr (Or.inl ?_)⟩
    · rw [sidecarName_append]
      exact hhalfSame.put .sidecarDraft _
    · rw [Folder.node?_put, if_neg (ne_append_draftSuffix _), hhalfNone]
  · exact ⟨_, hafter, sameBut_stored folder key data sidecar, Or.inr (Or.inr rfl)⟩

/-- A deletion that is cut off leaves the folder as it was, or without a sidecar of the key. -/
theorem leaves_delete (h : tree.Holds disk.root number folder)
    (hcut : (disk.delete key).Leaves tree after) :
    ∃ other, after.Holds disk.root number other ∧ SameBut key folder other ∧
      (other = folder ∨ other.node? (sidecarName key) = none) := by
  obtain ⟨hdata, _, hsidecar, _⟩ := isName_names key
  have hsame := SameBut.refl key folder
  have hbareSame := hsame.erase .sidecar
  have hnone : (folder.erase (sidecarName key)).node? (sidecarName key) = none := by simp
  rcases hcut.of_bind_ok (fun e => ⟨.error e, rfl⟩) with hcut | ⟨existed, bare, hbare, hcut⟩
  · rcases leaves_removeIfPresent h hsidecar hcut with hafter | hafter
    · exact ⟨_, hafter, hsame, Or.inl rfl⟩
    · exact ⟨_, hafter, hbareSame, Or.inr hnone⟩
  have hfirst := (of_run_removeIfPresent h hsidecar hbare).2
  have hlast : (removeIfPresent (disk.dataPath key)).Leaves bare after := by
    rcases hcut.of_bind_ok (fun e => ⟨.error e, rfl⟩) with hcut | ⟨_, last, hlast, hcut⟩
    · exact hcut
    · obtain rfl := Script.leaves_pure.mp hcut
      have hwhole := (removeIfPresent (disk.dataPath key)).leaves_run bare
      rwa [hlast] at hwhole
  rcases leaves_removeIfPresent hfirst hdata hlast with hafter | hafter
  · exact ⟨_, hafter, hbareSame, Or.inr hnone⟩
  · exact ⟨_, hafter, hbareSame.erase .data, Or.inr (by simp)⟩

end CutOff

end OriginMap.Disk
