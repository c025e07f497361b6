import Mathlib.Data.Nat.Notation
import OriginMap.Proofs.Disk.Confinement

/-!
# What failures leave

A step that fails changes nothing, so a failed storing or deletion leaves what the steps before it made.
A storing that fails leaves the tree as it was or the key without a sidecar. A deletion that fails leaves
the tree as it was, unless a folder stands in the place of the data: then the sidecar is gone already.
-/

namespace OriginMap

open Files

namespace Files.Tree

variable {tree : Tree} {root : Path} {number : ℕ} {folder : Folder} {name : String}

/-- What cannot be removed as it is missing is missing at its path. -/
theorem walk_child_of_remove (hname : Path.isName name = true)
    (h : tree.remove (root.child name) = .error .missing) :
    tree.walk (root.child name) = .error .missing := by
  by_cases hsome : ∃ number folder, tree.Holds root number folder
  · obtain ⟨number, folder, hholds⟩ := hsome
    exact (hholds.walk_child_eq_missing hname).mpr ((hholds.remove_child_eq_missing hname).mp h)
  · -- Without a folder the way to the name is missing already.
    simp only [not_exists] at hsome
    have hempty := Path.child_ne_empty hname root
    rw [remove, spot, if_neg hempty] at h
    by_cases hfits : (root.child name).fits = true
    · rw [if_pos hfits, Path.isAbsolute_child, Path.child_eq, List.dropLast_concat] at h
      rw [walk, if_neg hempty, if_pos hfits, Path.isAbsolute_child, Path.child_eq, reach_concat]
      cases hreach : tree.reach (decide (root.front.head? = some "")) root.front with
      | error trouble =>
        simp only [hreach] at h
        obtain rfl : trouble = .missing := Except.error.inj h
        rfl
      | ok node =>
        cases node with
        | file contents => simp [hreach] at h
        | folder number =>
          have hfolder : tree.folders[number]? = none :=
            Option.eq_none_iff_forall_ne_some.mpr fun folder hfolder =>
              hsome number folder ⟨hreach, hfolder⟩
          simp [Except.bind, follow, hfolder]
    · rw [if_neg hfits] at h
      cases h

/-- A name that can be looked up and whose removal is refused stands for a folder. -/
theorem Holds.node?_of_remove_refused (h : tree.Holds root number folder)
    (hname : Path.isName name = true) (hfits : (root.child name).fits = true)
    (hremove : tree.remove (root.child name) = .error .refused) :
    ∃ inner, folder.node? name = some (.folder inner) := by
  cases hnode : folder.node? name with
  | none =>
    have hmissing := (h.remove_child_eq_missing hname).mpr ⟨hfits, hnode⟩
    rw [hremove] at hmissing
    cases hmissing
  | some node =>
    cases node with
    | file contents =>
      have hremoved := (h.remove_child_eq_ok hname).mpr ⟨hfits, ⟨contents, hnode⟩, rfl⟩
      rw [hremove] at hremoved
      cases hremoved
    | folder inner => exact ⟨inner, rfl⟩

end Files.Tree

namespace Disk

variable {disk : Disk} {tree after : Tree} {number : ℕ} {folder : Folder} {name : String} {key : Key}
  {data : Bytes} {sidecar : Sidecar} {e : StorageError}

/-! ## Steps -/

/-- A file that cannot be removed stays, with the rest of the tree. -/
theorem of_run_removeIfPresent_error {path : Path}
    (hrun : (removeIfPresent path).run tree = (.error e, after)) :
    after = tree ∧ tree.remove path = .error .refused := by
  rw [run_removeIfPresent] at hrun
  cases hremove : tree.remove path with
  | ok changed => simp [hremove] at hrun
  | error trouble =>
    cases trouble with
    | missing => simp [hremove] at hrun
    | refused =>
      simp only [hremove, Prod.mk.injEq] at hrun
      exact ⟨hrun.2.symm, rfl⟩

/-- A file that was to be removed is not at its path. -/
theorem walk_of_run_removeIfPresent (hname : Path.isName name = true) {existed : Bool}
    (hrun : (removeIfPresent (disk.path name)).run tree = (.ok existed, after)) :
    after.walk (disk.path name) = .error .missing := by
  rw [run_removeIfPresent] at hrun
  cases hremove : tree.remove (disk.path name) with
  | ok changed =>
    simp only [hremove, Prod.mk.injEq] at hrun
    obtain ⟨-, rfl⟩ := hrun
    obtain ⟨number, folder, h⟩ := Tree.holds_of_remove hremove
    obtain ⟨hfits, ⟨contents, hnode⟩, rfl⟩ := (h.remove_child_eq_ok hname).mp hremove
    exact ((h.erase hnode).walk_child_eq_missing hname).mpr ⟨hfits, by simp⟩
  | error trouble =>
    cases trouble with
    | missing =>
      simp only [hremove, Prod.mk.injEq] at hrun
      obtain ⟨-, rfl⟩ := hrun
      exact Tree.walk_child_of_remove hname hremove
    | refused => simp [hremove] at hrun

/-- A replacement that fails leaves the folder as it was or with the whole draft. -/
theorem of_run_writeWhole_error (h : tree.Holds disk.root number folder)
    (hdraft : Path.isName (name ++ draftSuffix) = true) {contents : Bytes}
    (hrun : (disk.writeWhole name contents).run tree = (.error e, after)) :
    after.Holds disk.root number folder ∨
      after.Holds disk.root number (folder.put (name ++ draftSuffix) (.file contents)) := by
  rw [run_writeWhole] at hrun
  cases hwrite : tree.write (disk.path (name ++ draftSuffix)) contents with
  | error trouble =>
    simp only [hwrite, Prod.mk.injEq] at hrun
    exact Or.inl (hrun.2 ▸ h)
  | ok middle =>
    obtain ⟨-, hfree, hmiddle⟩ := (h.write_child_eq_ok hdraft).mp hwrite
    cases hrename : middle.rename (disk.path (name ++ draftSuffix)) (disk.path name) with
    | error trouble =>
      simp only [hwrite, hrename, Prod.mk.injEq] at hrun
      obtain ⟨-, rfl⟩ := hrun
      exact Or.inr (hmiddle ▸ h.put hfree contents)
    | ok changed => simp [hwrite, hrename] at hrun

/-- A replacement that fails brings no file back that is missing, but for its draft. -/
theorem node?_of_run_writeWhole_error (h : tree.Holds disk.root number folder)
    (hdraft : Path.isName (name ++ draftSuffix) = true) {contents : Bytes} {other : String}
    (hother : other ≠ name ++ draftSuffix) (hnone : folder.node? other = none)
    (hrun : (disk.writeWhole name contents).run tree = (.error e, after)) :
    ∃ changed, after.Holds disk.root number changed ∧ changed.node? other = none := by
  rcases of_run_writeWhole_error h hdraft hrun with hafter | hafter
  · exact ⟨folder, hafter, hnone⟩
  · refine ⟨_, hafter, ?_⟩
    rw [Folder.node?_put, if_neg hother, hnone]

/-! ## Storing and deleting -/

/-- Of the data and the sidecar of a key that has none the sidecar comes last, so a failure leaves the key
without one. -/
theorem node?_of_run_writes_error (h : tree.Holds disk.root number folder)
    (hnone : folder.node? (sidecarName key) = none)
    (hrun : (match (disk.writeWhole (dataName key) data).run tree with
      | (.error cause, half) => (.error cause, half)
      | (.ok (), half) => (disk.writeWhole (sidecarName key) sidecar.render).run half) =
        (.error e, after)) :
    ∃ changed, after.Holds disk.root number changed ∧ changed.node? (sidecarName key) = none := by
  obtain ⟨hdata, hdataDraft, -, hsidecarDraft⟩ := isName_names key
  have hapart : sidecarName key ≠ dataName key ∧ sidecarName key ≠ dataName key ++ draftSuffix := by
    rw [dataName_append]
    exact ⟨fileName_ne key .sidecar .data (by simp), fileName_ne key .sidecar .dataDraft (by simp)⟩
  rcases hhalf : (disk.writeWhole (dataName key) data).run tree with ⟨cause | _, half⟩
  · simp only [hhalf, Prod.mk.injEq] at hrun
    obtain ⟨-, rfl⟩ := hrun
    exact node?_of_run_writeWhole_error h hdataDraft hapart.2 hnone hhalf
  · simp only [hhalf] at hrun
    have hreplaced := of_run_writeWhole h hdata hdataDraft hhalf
    exact node?_of_run_writeWhole_error hreplaced hsidecarDraft (ne_append_draftSuffix _)
      (by simp [hapart.1, hapart.2, hnone]) hrun

/-- A storing that fails leaves the tree as it was or nothing in the place of the key's sidecar. -/
theorem of_run_write_error (hrun : (disk.write key data sidecar).run tree = (.error e, after)) :
    after = tree ∨ after.walk (disk.sidecarPath key) = .error .missing := by
  obtain ⟨-, -, hsidecar, -⟩ := isName_names key
  by_cases hsome : ∃ number folder, tree.Holds disk.root number folder
  · obtain ⟨number, folder, h⟩ := hsome
    rw [run_write] at hrun
    rcases hbare : (removeIfPresent (disk.sidecarPath key)).run tree with ⟨cause | existed, bare⟩
    · simp only [hbare, Prod.mk.injEq] at hrun
      exact Or.inl (hrun.2 ▸ (of_run_removeIfPresent_error hbare).1)
    · simp only [hbare] at hrun
      have hfirst := (of_run_removeIfPresent h hsidecar hbare).2
      have hfits := ((hfirst.walk_child_eq_missing hsidecar).mp
        (walk_of_run_removeIfPresent hsidecar hbare)).1
      obtain ⟨changed, hafter, hnone⟩ := node?_of_run_writes_error hfirst (by simp) hrun
      exact Or.inr ((hafter.walk_child_eq_missing hsidecar).mpr ⟨hfits, hnone⟩)
  · simp only [not_exists] at hsome
    have hsame := (sameBeside_write disk key data sidecar tree).nowhere hsome
    rw [hrun] at hsame
    exact Or.inl hsame

/-- The trees before and after a deletion that failed half way: a folder stands in the place of the data,
and the sidecar is gone. Nothing else is different. -/
structure Stripped (disk : Disk) (key : Key) (tree after : Tree) : Prop where
  /-- The key had a sidecar. -/
  sidecar : ∃ contents, tree.walk (disk.sidecarPath key) = .ok (.file contents)
  /-- A folder stood in the place of its data. -/
  data : ∃ inner, tree.walk (disk.dataPath key) = .ok (.folder inner)
  /-- The sidecar is gone. -/
  lost : after.walk (disk.sidecarPath key) = .error .missing
  /-- The data directory is the same beside the sidecar. -/
  beside : tree.SameBeside [sidecarName key] disk.root after

/-- A key is stripped if its sidecar is removed and then the removal of its data is refused. -/
theorem stripped_of_remove (hremove : tree.remove (disk.sidecarPath key) = .ok after)
    (hrefused : after.remove (disk.dataPath key) = .error .refused) :
    disk.Stripped key tree after := by
  obtain ⟨hdata, -, hsidecar, -⟩ := isName_names key
  have hbeside := Tree.sameBeside_of_remove hsidecar (List.mem_singleton_self _) hremove
  obtain ⟨number, folder, h⟩ := Tree.holds_of_remove hremove
  obtain ⟨hfits, ⟨contents, hnode⟩, rfl⟩ := (h.remove_child_eq_ok hsidecar).mp hremove
  have hafter := h.erase hnode
  -- The name of the data is no longer than that of the sidecar, which could be looked up.
  have hfitsData : (disk.path (dataName key)).fits = true :=
    Path.fits_child_of_le hfits (nul_notMem_fileName key .data) (by
      rw [dataName, sidecarName, String.utf8ByteSize_append, String.utf8ByteSize_append]
      exact Nat.add_le_add_left (by decide) _)
  have hapart : dataName key ≠ sidecarName key := fileName_ne key .data .sidecar (by simp)
  obtain ⟨inner, hinner⟩ := hafter.node?_of_remove_refused hdata hfitsData hrefused
  rw [Folder.node?_erase, if_neg hapart] at hinner
  exact
    { sidecar := ⟨contents, (h.walk_child_eq_ok hsidecar).mpr ⟨hfits, hnode⟩⟩
      data := ⟨inner, (h.walk_child_eq_ok hdata).mpr ⟨hfitsData, hinner⟩⟩
      lost := (hafter.walk_child_eq_missing hsidecar).mpr ⟨hfits, by simp⟩
      beside := hbeside }

/-- A deletion that fails leaves the tree as it was or strips the key of its sidecar. -/
theorem of_run_delete_error (hrun : (disk.delete key).run tree = (.error e, after)) :
    after = tree ∨ disk.Stripped key tree after := by
  rw [run_delete] at hrun
  rcases hbare : (removeIfPresent (disk.sidecarPath key)).run tree with ⟨cause | existed, bare⟩
  · simp only [hbare, Prod.mk.injEq] at hrun
    exact Or.inl (hrun.2 ▸ (of_run_removeIfPresent_error hbare).1)
  · simp only [hbare] at hrun
    rcases hlast : (removeIfPresent (disk.dataPath key)).run bare with ⟨cause | _, last⟩
    · simp only [hlast, Prod.mk.injEq] at hrun
      obtain ⟨-, rfl⟩ := hrun
      obtain ⟨rfl, hrefused⟩ := of_run_removeIfPresent_error hlast
      rw [run_removeIfPresent] at hbare
      cases hremove : tree.remove (disk.sidecarPath key) with
      | error trouble =>
        cases trouble <;> simp [hremove] at hbare
        exact Or.inl hbare.2.symm
      | ok changed =>
        simp only [hremove, Prod.mk.injEq] at hbare
        obtain ⟨-, rfl⟩ := hbare
        exact Or.inr (stripped_of_remove hremove hrefused)
    · simp [hlast] at hrun

/-- After a deletion the key has neither a sidecar nor data. -/
theorem walk_of_run_delete {existed : Bool}
    (hrun : (disk.delete key).run tree = (.ok existed, after)) :
    after.walk (disk.sidecarPath key) = .error .missing ∧
      after.walk (disk.dataPath key) = .error .missing := by
  obtain ⟨hdata, -, hsidecar, -⟩ := isName_names key
  rw [run_delete] at hrun
  rcases hbare : (removeIfPresent (disk.sidecarPath key)).run tree with ⟨cause | found, bare⟩
  · simp [hbare] at hrun
  · simp only [hbare] at hrun
    rcases hlast : (removeIfPresent (disk.dataPath key)).run bare with ⟨cause | _, last⟩
    · simp [hlast] at hrun
    · simp only [hlast, Prod.mk.injEq] at hrun
      obtain ⟨-, rfl⟩ := hrun
      have hworks : (removeIfPresent (disk.path (dataName key))).WorksOn disk.root
          (· ∈ [dataName key]) bare :=
        worksOn_removeIfPresent disk bare (List.mem_singleton_self (dataName key))
      have hbeside := hworks.sameBeside fun name hmem => List.mem_singleton.mp hmem ▸ hdata
      rw [← dataPath, hlast] at hbeside
      have hapart : sidecarName key ∉ [dataName key] :=
        fun hmem => fileName_ne key .sidecar .data (by simp) (List.mem_singleton.mp hmem)
      have hsame := hbeside.walk_child hapart (fileName_ne_empty key .sidecar)
      exact ⟨hsame.trans (walk_of_run_removeIfPresent hsidecar hbare),
        walk_of_run_removeIfPresent hdata hlast⟩

end Disk

end OriginMap
