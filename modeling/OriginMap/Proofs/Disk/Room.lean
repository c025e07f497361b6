import Mathlib.Data.Nat.Notation
import OriginMap.Proofs.Disk.Footprint
import OriginMap.Proofs.Sidecar

/-!
# A data directory with room

Where the paths of a key's files can be looked up and no folder stands in their place, storing and deleting
succeed, and what was stored is read. None of the operations changes which folders there are. A data
directory may have a path that can be looked up itself and is too long for anything below it.
-/

namespace OriginMap.Disk

open Files

/-! ## Room -/

/-- The files of a key have paths that can be looked up. -/
def HasRoom (disk : Disk) (key : Key) : Prop :=
  ∀ kind, (disk.path (fileName key kind)).fits = true

/-- There is room for every key below a path that can be looked up and is not too long. -/
theorem hasRoom_of_size {disk : Disk} (hnul : ∀ piece ∈ disk.root.front, '\x00' ∉ piece.toList)
    (hsize : disk.root.front.toText.utf8ByteSize + 161 < Path.maxSize) (key : Key) :
    disk.HasRoom key := by
  intro kind
  have hname := utf8ByteSize_fileName_le key kind
  refine (Path.fits_child_iff _ _).mpr ⟨hnul, nul_notMem_fileName key kind, ?_⟩
  split <;> omega

/-- There is room in the empty data directory. -/
theorem hasRoom_bareDisk (key : Key) : bareDisk.HasRoom key :=
  hasRoom_of_size (by decide) (by decide) key

/-- There is room for a key if the longest name of its files can be looked up. -/
theorem hasRoom_of_draft {disk : Disk} {key : Key}
    (h : (disk.path (fileName key .sidecarDraft)).fits = true) : disk.HasRoom key := by
  intro kind
  refine Path.fits_child_of_le h (nul_notMem_fileName key kind) ?_
  have hsuffix : kind.suffix.utf8ByteSize ≤ FileKind.sidecarDraft.suffix.utf8ByteSize := by
    cases kind <;> decide
  rw [fileName, fileName, String.utf8ByteSize_append, String.utf8ByteSize_append]
  omega

/-- No folder stands in the place of a file of a key. -/
def Free (folder : Folder) (key : Key) : Prop :=
  ∀ kind inner, folder.node? (fileName key kind) ≠ some (.folder inner)

/-- No folder stands in an empty folder. -/
theorem free_nil (above : ℕ) (key : Key) : Free ⟨above, []⟩ key := by
  intro kind inner hnode
  cases hnode

variable {disk : Disk} {tree : Tree} {number : ℕ} {folder : Folder} {name : String} {key : Key}
  {data : Bytes} {sidecar : Sidecar}

/-- A removal puts no folder in the place of a file. -/
theorem Free.erase (h : Free folder key) (name : String) : Free (folder.erase name) key := by
  intro kind inner
  rw [Folder.node?_erase]
  split
  · simp
  · exact h kind inner

/-- A file that is written puts no folder in the place of another. -/
theorem Free.put (h : Free folder key) (name : String) (contents : Bytes) :
    Free (folder.put name (.file contents)) key := by
  intro kind inner
  rw [Folder.node?_put]
  split
  · simp
  · exact h kind inner

/-- A file that is replaced puts no folder in the place of another. -/
theorem Free.replaced (h : Free folder key) (name : String) (contents : Bytes) :
    Free (replaced folder name contents) key :=
  ((h.put (name ++ draftSuffix) contents).erase (name ++ draftSuffix)).put name contents

/-! ## No room -/

/-- The root, by a path with some dots. -/
def dotted (count : ℕ) : Path := "" :: List.replicate count "."

/-- One more dot ends the path. -/
theorem dotted_succ (count : ℕ) : dotted (count + 1) = dotted count ++ ["."] := by
  rw [dotted, List.replicate_succ', ← List.cons_append, dotted]

/-- Its text has two bytes for each dot. -/
theorem utf8ByteSize_toText_dotted (count : ℕ) : (dotted count).toText.utf8ByteSize = 2 * count := by
  induction count with
  | zero => rfl
  | succ count ih =>
    have hne : dotted count ≠ [] := List.cons_ne_nil _ _
    rw [dotted_succ, Path.toText, String.intercalate_append_of_ne_nil hne (by simp), ← Path.toText,
      String.utf8ByteSize_append, String.utf8ByteSize_append, ih, String.intercalate_singleton]
    rfl

/-- The path leads to the root as long as it can be looked up. -/
theorem folderAt_dotted {count : ℕ} (hpos : 0 < count) (hcount : 2 * count < Path.maxSize) :
    (Tree.ofFiles []).folderAt (dotted count) = .ok ⟨0, []⟩ := by
  obtain ⟨count, rfl⟩ := Nat.exists_eq_add_one.mpr hpos
  have hne : dotted (count + 1) ≠ .empty := by
    simp [dotted, Path.empty, List.replicate_succ]
  have hfits : (dotted (count + 1)).fits = true := by
    rw [Path.fits, utf8ByteSize_toText_dotted]
    simpa [dotted] using hcount
  have hstays (count : ℕ) :
      (dotted count).foldlM (Tree.ofFiles []).follow (.folder 0) = .ok (.folder 0) := by
    induction count with
    | zero => rfl
    | succ count ih => exact ih
  have hreach : (Tree.ofFiles []).reach (dotted (count + 1)).isAbsolute (dotted (count + 1)) =
      .ok (.folder 0) := hstays _
  rw [Tree.folderAt, Tree.walk, if_neg hne, if_pos hfits, hreach]
  rfl

/-- There is no room for a key below the path if it is about as long as paths can be. -/
theorem fits_sidecarPath_dotted {count : ℕ} (hcount : Path.maxSize ≤ 2 * count + 2) (key : Key) :
    ((⟨dotted count⟩ : Disk).sidecarPath key).fits = false := by
  have hpos : 0 < count := by
    rw [Path.maxSize] at hcount
    omega
  obtain ⟨count, rfl⟩ := Nat.exists_eq_add_one.mpr hpos
  have hfront : (dotted (count + 1)).front = dotted (count + 1) := by
    rw [Path.front, dotted_succ, List.getLast?_concat, if_neg (by decide)]
  have hne : dotted (count + 1) ≠ [] := List.cons_ne_nil _ _
  have hname : sidecarName key ≠ "" := (Path.isName_iff.mp (isName_fileName key .sidecar)).1
  have hsize : (sidecarName key).utf8ByteSize ≠ 0 := by simpa using hname
  rw [sidecarPath, path, ← Bool.not_eq_true, Path.fits_child_iff, hfront, utf8ByteSize_toText_dotted,
    if_neg hne]
  rintro ⟨-, -, h⟩
  omega

/-- Nothing is stored under a key whose sidecar has a path that cannot be looked up. -/
theorem run_write_refused {disk : Disk} {key : Key} (hfits : (disk.sidecarPath key).fits = false)
    (tree : Tree) (data : Bytes) (sidecar : Sidecar) :
    (disk.write key data sidecar).run tree =
      (.error (.io (disk.sidecarPath key) .refused), tree) := by
  have hne : disk.sidecarPath key ≠ .empty :=
    Path.child_ne_empty (isName_fileName key .sidecar) disk.root
  have hremove : tree.remove (disk.sidecarPath key) = .error .refused := by
    rw [Tree.remove, Tree.spot, if_neg hne, hfits]
    rfl
  have hbare : (removeIfPresent (disk.sidecarPath key)).run tree =
      (.error (.io (disk.sidecarPath key) .refused), tree) := by
    rw [run_removeIfPresent, hremove]
  rw [run_write, hbare]

/-! ## Success -/

/-- A file is written beside its place and renamed. -/
theorem run_writeWhole_ok (h : tree.Holds disk.root number folder) (hname : Path.isName name = true)
    (hdraft : Path.isName (name ++ draftSuffix) = true) (hfits : (disk.path name).fits = true)
    (hfitsDraft : (disk.path (name ++ draftSuffix)).fits = true)
    (hfree : ∀ inner, folder.node? name ≠ some (.folder inner))
    (hfreeDraft : ∀ inner, folder.node? (name ++ draftSuffix) ≠ some (.folder inner))
    (contents : Bytes) : ∃ after, (disk.writeWhole name contents).run tree = (.ok (), after) := by
  have hwrite : tree.write (disk.path (name ++ draftSuffix)) contents = .ok _ :=
    (h.write_child_eq_ok hdraft).mpr ⟨hfitsDraft, hfreeDraft, rfl⟩
  have hmiddle := h.put hfreeDraft contents
  have hnode : (folder.put (name ++ draftSuffix) (.file contents)).node? (name ++ draftSuffix) =
      some (.file contents) := by
    rw [Folder.node?_put, if_pos rfl]
  have hfreeName : ∀ inner, (folder.put (name ++ draftSuffix) (.file contents)).node? name ≠
      some (.folder inner) := by
    intro inner
    rw [Folder.node?_put, if_neg (ne_append_draftSuffix name)]
    exact hfree inner
  obtain ⟨after, hrename⟩ := hmiddle.rename_child hdraft hname hfitsDraft hfits hnode hfreeName
  have hrename' : (tree.change number (·.put (name ++ draftSuffix) (.file contents))).rename
      (disk.path (name ++ draftSuffix)) (disk.path name) = .ok after := hrename
  rw [run_writeWhole, hwrite]
  simp only [hrename']
  exact ⟨after, rfl⟩

/-- Data and a sidecar are stored. -/
theorem run_write_ok (hroom : disk.HasRoom key) (hroot : tree.folderAt disk.root = .ok folder)
    (hfree : Free folder key) (data : Bytes) (sidecar : Sidecar) :
    ∃ after, (disk.write key data sidecar).run tree = (.ok (), after) ∧
      after.folderAt disk.root = .ok (stored folder key data sidecar) := by
  obtain ⟨number, hwalk, h⟩ := Tree.Holds.of_folderAt hroot
  obtain ⟨hdata, hdataDraft, hsidecar, hsidecarDraft⟩ := isName_names key
  have hfitsDataDraft : (disk.path (dataName key ++ draftSuffix)).fits = true := by
    rw [dataName_append]
    exact hroom .dataDraft
  have hfitsSidecarDraft : (disk.path (sidecarName key ++ draftSuffix)).fits = true := by
    rw [sidecarName_append]
    exact hroom .sidecarDraft
  have hbare := run_removeIfPresent_eq_erase h hsidecar (hroom .sidecar) (hfree .sidecar)
  have hfirst := (of_run_removeIfPresent h hsidecar hbare).2
  have hfreeFirst := hfree.erase (sidecarName key)
  obtain ⟨half, hhalf⟩ := run_writeWhole_ok hfirst hdata hdataDraft (hroom .data) hfitsDataDraft
    (hfreeFirst .data) (by rw [dataName_append]; exact hfreeFirst .dataDraft) data
  have hsecond := of_run_writeWhole hfirst hdata hdataDraft hhalf
  have hfreeSecond := hfreeFirst.replaced (dataName key) data
  obtain ⟨after, hafter⟩ := run_writeWhole_ok hsecond hsidecar hsidecarDraft (hroom .sidecar)
    hfitsSidecarDraft (hfreeSecond .sidecar)
    (by rw [sidecarName_append]; exact hfreeSecond .sidecarDraft) sidecar.render
  have hrun : (disk.write key data sidecar).run tree = (.ok (), after) := by
    rw [run_write, sidecarPath, hbare]
    simp only [hhalf, hafter]
  have hsame := sameFolders_write disk key tree data sidecar
  rw [hrun] at hsame
  exact ⟨after, hrun, (of_run_write h hrun).folderAt (hsame.walk hwalk)⟩

/-- The data and the sidecar of a key are deleted. -/
theorem run_delete_ok (hroom : disk.HasRoom key) (hroot : tree.folderAt disk.root = .ok folder)
    (hfree : Free folder key) :
    ∃ after, (disk.delete key).run tree = (.ok (folder.node? (sidecarName key)).isSome, after) ∧
      after.folderAt disk.root = .ok (deleted folder key) := by
  obtain ⟨number, hwalk, h⟩ := Tree.Holds.of_folderAt hroot
  obtain ⟨hdata, -, hsidecar, -⟩ := isName_names key
  have hbare := run_removeIfPresent_eq_erase h hsidecar (hroom .sidecar) (hfree .sidecar)
  have hfirst := (of_run_removeIfPresent h hsidecar hbare).2
  have hafter := run_removeIfPresent_eq_erase hfirst hdata (hroom .data)
    ((hfree.erase (sidecarName key)) .data)
  obtain ⟨after, hrun⟩ : ∃ after, (disk.delete key).run tree =
      (.ok (folder.node? (sidecarName key)).isSome, after) := by
    rw [run_delete, sidecarPath, hbare]
    simp only [dataPath, hafter]
    exact ⟨_, rfl⟩
  have hsame := sameFolders_delete disk key tree
  rw [hrun] at hsame
  exact ⟨after, hrun, (of_run_delete h hrun).2.folderAt (hsame.walk hwalk)⟩

/-! ## Reading -/

/-- A key without a sidecar is read as absent. -/
theorem run_readSidecar_none (hroom : disk.HasRoom key) (h : tree.Holds disk.root number folder)
    (hnode : folder.node? (sidecarName key) = none) :
    (disk.readSidecar key).run tree = (.ok none, tree) := by
  have hread : tree.read (disk.sidecarPath key) = .error .missing :=
    (h.read_child_eq_missing (isName_names key).2.2.1).mpr ⟨hroom .sidecar, hnode⟩
  rw [readSidecar, run_readSidecarAt, hread]

/-- A sidecar that can be read is read. -/
theorem run_readSidecar_some (hroom : disk.HasRoom key) (h : tree.Holds disk.root number folder)
    {contents : Bytes} (hnode : folder.node? (sidecarName key) = some (.file contents))
    (hsidecar : Sidecar.read contents = .ok sidecar) :
    (disk.readSidecar key).run tree = (.ok (some sidecar), tree) := by
  have hread : tree.read (disk.sidecarPath key) = .ok contents :=
    (h.read_child_eq_ok (isName_names key).2.2.1).mpr ⟨hroom .sidecar, hnode⟩
  rw [readSidecar, run_readSidecarAt, hread]
  simp only [hsidecar]

/-- A key without a sidecar is read as absent, whatever its data is. -/
theorem run_read_none (hroom : disk.HasRoom key) (h : tree.Holds disk.root number folder)
    (hnode : folder.node? (sidecarName key) = none) :
    (disk.read key).run tree = (.ok none, tree) := by
  rw [run_read, run_readSidecar_none hroom h hnode]

/-- A sidecar and data that stand under a key are read if the sidecar is about the data. -/
theorem run_read_present (hroom : disk.HasRoom key) (h : tree.Holds disk.root number folder)
    {contents : Bytes} (hnode : folder.node? (sidecarName key) = some (.file contents))
    (hsidecar : Sidecar.read contents = .ok sidecar)
    (hdata : folder.node? (dataName key) = some (.file data)) :
    (disk.read key).run tree =
      (.ok (if Sha256.hexDigest data = sidecar.sha256 then some (sidecar, data) else none), tree) := by
  have hread : tree.read (disk.dataPath key) = .ok data :=
    (h.read_child_eq_ok (isName_names key).1).mpr ⟨hroom .data, hdata⟩
  rw [run_read, run_readSidecar_some hroom h hnode hsidecar]
  simp only [hread]
  split_ifs <;> rfl

/-- A sidecar and the data that it is about are read. -/
theorem run_read_some (hroom : disk.HasRoom key) (h : tree.Holds disk.root number folder)
    {contents : Bytes} (hnode : folder.node? (sidecarName key) = some (.file contents))
    (hsidecar : Sidecar.read contents = .ok sidecar)
    (hdata : folder.node? (dataName key) = some (.file data))
    (hdigest : Sha256.hexDigest data = sidecar.sha256) :
    (disk.read key).run tree = (.ok (some (sidecar, data)), tree) := by
  rw [run_read_present hroom h hnode hsidecar hdata, if_pos hdigest]

/-- A data directory whose path is not empty lists every sidecar that can be read in a key's place. -/
theorem mem_list_of_sidecarAt? (hroot : disk.root ≠ .empty)
    (h : sidecarAt? tree (disk.sidecarPath key) = some sidecar) :
    ∃ names sidecars, tree.list disk.root = .ok names ∧ sidecarName key ∈ names ∧
      disk.list.run tree = (.ok sidecars, tree) ∧ sidecar ∈ sidecars := by
  have hname : Path.isName (sidecarName key) = true := isName_fileName key .sidecar
  obtain ⟨contents, hread, -⟩ := sidecarAt?_eq_some.mp h
  obtain ⟨number, folder, hholds⟩ := Tree.holds_of_walk_child hname (Tree.walk_of_read hread)
  obtain ⟨hfits, hnode⟩ := (hholds.read_child_eq_ok hname).mp hread
  have hwalk := hholds.walk_root hroot (Path.fits_of_child hfits)
  have hlist : tree.list disk.root = .ok (folder.nodes.map Prod.fst) := by
    rw [Tree.list, hholds.folderAt hwalk]
    rfl
  have hmem : sidecarName key ∈ folder.nodes.map Prod.fst := by
    rw [Folder.mem_names, hnode]
    simp
  refine ⟨_, _, hlist, hmem, by rw [run_list, hlist], ?_⟩
  apply List.mem_filterMap.mpr
  exact ⟨sidecarName key,
    List.mem_filter.mpr ⟨hmem, (isSidecarName_fileName key .sidecar).mpr rfl⟩, h⟩

/-! ## What was stored -/

/-- Once data and a sidecar were stored, there is room for the key and a folder at the root in which they
were stored, whatever stood in the tree before. -/
theorem stored_of_run_write {after : Tree}
    (hrun : (disk.write key data sidecar).run tree = (.ok (), after)) :
    disk.HasRoom key ∧ ∃ number folder,
      after.Holds disk.root number (stored folder key data sidecar) := by
  obtain ⟨hdata, hdataDraft, hsidecar, hsidecarDraft⟩ := isName_names key
  have hwhole := hrun
  rw [run_write] at hrun
  rcases hbare : (removeIfPresent (disk.sidecarPath key)).run tree with ⟨_ | existed, bare⟩
  · simp [hbare] at hrun
  · simp only [hbare] at hrun
    rcases hhalf : (disk.writeWhole (dataName key) data).run bare with ⟨_ | _, half⟩
    · simp [hhalf] at hrun
    · simp only [hhalf] at hrun
      obtain ⟨_, hwrite, -⟩ := write_rename_of_run hhalf
      obtain ⟨number, folder, hbareHolds⟩ := Tree.holds_of_write hwrite
      have hhalfHolds := of_run_writeWhole hbareHolds hdata hdataDraft hhalf
      obtain ⟨_, hwrite, -⟩ := write_rename_of_run hrun
      have hfits : (disk.path (sidecarName key ++ draftSuffix)).fits = true :=
        ((hhalfHolds.write_child_eq_ok hsidecarDraft).mp hwrite).1
      rw [sidecarName_append] at hfits
      -- The removal kept the folders, so the one that was written to stood in the tree before.
      have hworks : (removeIfPresent (disk.path (sidecarName key))).WorksOn disk.root (OwnName key)
          tree := worksOn_removeIfPresent disk tree (ownName_fileName key .sidecar)
      have hfolders := (hworks.alteredAt fun _ hname => hname.isName).folders
      rw [← sidecarPath, hbare] at hfolders
      obtain ⟨before, hbefore⟩ := hfolders.symm.holds hbareHolds
      exact ⟨hasRoom_of_draft hfits, number, before, of_run_write hbefore hwhole⟩

/-- Once data and a sidecar were stored, they stand in a folder at the root, whatever stood in the tree
before. -/
theorem holds_of_run_write {after : Tree}
    (hrun : (disk.write key data sidecar).run tree = (.ok (), after)) :
    disk.HasRoom key ∧ ∃ number folder, after.Holds disk.root number folder ∧
      folder.node? (sidecarName key) = some (.file sidecar.render) ∧
      folder.node? (dataName key) = some (.file data) := by
  obtain ⟨hroom, number, folder, hholds⟩ := stored_of_run_write hrun
  exact ⟨hroom, number, _, hholds, node?_stored folder key data sidecar .sidecar,
    node?_stored folder key data sidecar .data⟩

end OriginMap.Disk
