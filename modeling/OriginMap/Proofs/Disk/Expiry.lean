import OriginMap.Proofs.Disk.Confinement
import OriginMap.Proofs.Disk.Failure
import OriginMap.Proofs.Files.Loss

/-!
# Expired keys

A key has expired if the sidecar in its own place says that it was stored before a cutoff, and it is due
if that sidecar names it as well. Deleting a key only loses its sidecar and its data, so no key expires
or comes due by it. Where no folder stands in the place of its data, an expired key can be deleted.
-/

namespace OriginMap.Disk

open Files

/-- The sidecar in a key's place says that it was stored before the cutoff. -/
def Expired (disk : Disk) (cutoff : Time.Instant) (tree : Tree) (key : Key) : Prop :=
  ∃ sidecar, sidecarAt? tree (disk.sidecarPath key) = some sidecar ∧
    sidecar.storedAt.before cutoff = true

/-- The sidecar in a key's place names the key and says that it was stored before the cutoff. -/
def Due (disk : Disk) (cutoff : Time.Instant) (tree : Tree) (key : Key) : Prop :=
  ∃ sidecar, sidecarAt? tree (disk.sidecarPath key) = some sidecar ∧ sidecar.key = key ∧
    sidecar.storedAt.before cutoff = true

/-- A name is that of a key's sidecar or of its data. -/
def PairName (key : Key) (name : String) : Prop := name = sidecarName key ∨ name = dataName key

/-- The names of the sidecar and the data of expired keys. -/
def ExpiredName (disk : Disk) (cutoff : Time.Instant) (tree : Tree) (name : String) : Prop :=
  ∃ key, disk.Expired cutoff tree key ∧ PairName key name

/-- The names of the sidecar and the data of keys that are due. -/
def DueName (disk : Disk) (cutoff : Time.Instant) (tree : Tree) (name : String) : Prop :=
  ∃ key, disk.Due cutoff tree key ∧ PairName key name

variable {disk : Disk} {cutoff : Time.Instant} {tree after : Tree} {key other : Key}
  {permitted : String → Prop}

/-- A key that is due has expired. -/
theorem Due.expired (h : disk.Due cutoff tree key) : disk.Expired cutoff tree key := by
  obtain ⟨sidecar, hplace, -, hbefore⟩ := h
  exact ⟨sidecar, hplace, hbefore⟩

/-- The sidecar of an expired key can be read in a folder. -/
theorem Expired.exists_holds (h : disk.Expired cutoff tree key) :
    ∃ number folder, tree.Holds disk.root number folder := by
  obtain ⟨sidecar, hplace, -⟩ := h
  obtain ⟨contents, hread, -⟩ := sidecarAt?_eq_some.mp hplace
  exact Tree.holds_of_walk_child (isName_fileName key .sidecar) (Tree.walk_of_read hread)

/-- Keys that are due and share a stem are the same. -/
theorem Due.eq_of_stem (h : disk.Due cutoff tree key) (h' : disk.Due cutoff tree other)
    (hstem : key.stem = other.stem) : key = other := by
  obtain ⟨sidecar, hplace, hkey, -⟩ := h
  obtain ⟨sidecar', hplace', hkey', -⟩ := h'
  have hpath : disk.sidecarPath key = disk.sidecarPath other := by
    rw [sidecarPath, sidecarPath, sidecarName, sidecarName, hstem]
  rw [hpath, hplace'] at hplace
  rw [← hkey, ← hkey', Option.some.inj hplace]

/-! ## Losses -/

/-- A sidecar that can be read after a loss could be read before. -/
theorem sidecarAt?_of_losesAt (h : tree.LosesAt disk.root permitted after) {name : String}
    (hname : Path.isName name = true) {sidecar : Sidecar}
    (hplace : sidecarAt? after (disk.path name) = some sidecar) :
    sidecarAt? tree (disk.path name) = some sidecar := by
  obtain ⟨contents, hread, hsidecar⟩ := sidecarAt?_eq_some.mp hplace
  exact sidecarAt?_eq_some.mpr ⟨contents, h.read_child hname hread, hsidecar⟩

/-- No key expires by a loss. -/
theorem Expired.of_losesAt (h : tree.LosesAt disk.root permitted after)
    (hexpired : disk.Expired cutoff after key) : disk.Expired cutoff tree key := by
  obtain ⟨sidecar, hplace, hbefore⟩ := hexpired
  exact ⟨sidecar, sidecarAt?_of_losesAt h (isName_fileName key .sidecar) hplace, hbefore⟩

/-- No key comes due by a loss. -/
theorem Due.of_losesAt (h : tree.LosesAt disk.root permitted after)
    (hdue : disk.Due cutoff after key) : disk.Due cutoff tree key := by
  obtain ⟨sidecar, hplace, hkey, hbefore⟩ := hdue
  exact ⟨sidecar, sidecarAt?_of_losesAt h (isName_fileName key .sidecar) hplace, hkey, hbefore⟩

/-- Removing a file that may be missing loses it at most. -/
theorem losesAt_removeIfPresent (disk : Disk) {name : String} (hname : Path.isName name = true)
    (hpermitted : permitted name) (tree : Tree) :
    tree.LosesAt disk.root permitted ((removeIfPresent (disk.path name)).run tree).2 := by
  rw [run_removeIfPresent]
  cases hremove : tree.remove (disk.path name) with
  | ok after => exact Tree.losesAt_of_remove hname hpermitted hremove
  | error trouble => cases trouble <;> exact .refl disk.root permitted tree

/-- Deleting a key, whether it succeeds or fails, loses its sidecar and its data at most. -/
theorem losesAt_delete (disk : Disk) (key : Key) (tree : Tree) :
    tree.LosesAt disk.root (PairName key) ((disk.delete key).run tree).2 := by
  obtain ⟨hdata, -, hsidecar, -⟩ := isName_names key
  have hfirst : tree.LosesAt disk.root (PairName key) _ :=
    losesAt_removeIfPresent disk hsidecar (Or.inl rfl) tree
  rw [run_delete]
  rcases hbare : (removeIfPresent (disk.sidecarPath key)).run tree with ⟨cause | existed, bare⟩
  all_goals rw [← sidecarPath, hbare] at hfirst
  · exact hfirst
  · have hlast : bare.LosesAt disk.root (PairName key) _ :=
      losesAt_removeIfPresent disk hdata (Or.inr rfl) bare
    rcases hrun : (removeIfPresent (disk.dataPath key)).run bare with ⟨cause | _, last⟩
    all_goals
      rw [← dataPath, hrun] at hlast
      simp only [hrun]
      exact hfirst.trans hlast

/-! ## Deletions -/

/-- A key that can be deleted has no folder in the place of its data. -/
theorem walk_dataPath_of_run_delete {existed : Bool}
    (hrun : (disk.delete key).run tree = (.ok existed, after)) (inner : ℕ) :
    tree.walk (disk.dataPath key) ≠ .ok (.folder inner) := by
  intro hwalk
  have hsame := sameFolders_delete disk key tree
  rw [hrun] at hsame
  have hmissing := (walk_of_run_delete hrun).2
  rw [hsame.walk hwalk] at hmissing
  cases hmissing

/-- Whether a folder stands in the place of a key's data. -/
def blocked (key : Key) (folder : Folder) : Bool :=
  match folder.node? (dataName key) with
  | some (.folder _) => true
  | _ => false

/-- It does if the name of the data stands for one. -/
theorem blocked_iff {folder : Folder} :
    blocked key folder = true ↔ ∃ inner, folder.node? (dataName key) = some (.folder inner) := by
  rw [blocked]
  rcases folder.node? (dataName key) with _ | contents | inner <;> simp

/-- A folder without a key's sidecar, and without its data unless a folder stands there. -/
def strip (key : Key) (folder : Folder) : Folder :=
  if blocked key folder then folder.erase (sidecarName key) else deleted folder key

/-- Deleting an expired key strips the data directory of it, and fails if a folder stands in the place of
its data. -/
theorem run_delete_eq_strip {number : ℕ} {folder : Folder}
    (hholds : tree.Holds disk.root number folder) (hexpired : disk.Expired cutoff tree key) :
    (disk.delete key).run tree =
      (if blocked key folder then .error (.io (disk.dataPath key) .refused) else .ok true,
        tree.change number (strip key)) := by
  obtain ⟨sidecar, hplace, -⟩ := hexpired
  obtain ⟨contents, hread, -⟩ := sidecarAt?_eq_some.mp hplace
  have hname : Path.isName (sidecarName key) = true := isName_fileName key .sidecar
  have hnameData : Path.isName (dataName key) = true := isName_fileName key .data
  obtain ⟨hfits, hnode⟩ := (hholds.read_child_eq_ok hname).mp hread
  have hfirst : (removeIfPresent (disk.sidecarPath key)).run tree =
      (.ok true, tree.change number (·.erase (sidecarName key))) := by
    have hfree : ∀ inner, folder.node? (sidecarName key) ≠ some (.folder inner) := by simp [hnode]
    rw [sidecarPath, run_removeIfPresent_eq_erase hholds hname hfits hfree, hnode]
    rfl
  have hbare := hholds.erase hnode
  have hdata : (folder.erase (sidecarName key)).node? (dataName key) = folder.node? (dataName key) :=
    (Folder.node?_erase _ _ _).trans (if_neg (fileName_ne key .data .sidecar (by simp)))
  rw [run_delete, hfirst]
  simp only
  by_cases hblocked : blocked key folder = true
  · obtain ⟨inner, hinner⟩ := blocked_iff.mp hblocked
    have hstrip : folder.erase (sidecarName key) = strip key folder := (if_pos hblocked).symm
    rw [run_removeIfPresent, dataPath, path,
      hbare.remove_child_eq_refused hnameData (hdata.trans hinner), if_pos hblocked,
      Tree.change_congr hholds.folder hstrip]
  · have hfree : ∀ inner, (folder.erase (sidecarName key)).node? (dataName key) ≠
        some (.folder inner) := by
      intro inner hinner
      exact hblocked (blocked_iff.mpr ⟨inner, hdata.symm.trans hinner⟩)
    have hstrip : deleted folder key = strip key folder := (if_neg hblocked).symm
    rw [dataPath, run_removeIfPresent_eq_erase hbare hnameData (fits_dataPath hfits) hfree,
      Tree.change_change, if_neg hblocked, Tree.change_congr hholds.folder hstrip]

/-- The data directory stays where it is when it is stripped of an expired key. -/
theorem holds_strip {number : ℕ} {folder : Folder} (hholds : tree.Holds disk.root number folder)
    (hexpired : disk.Expired cutoff tree key) :
    (tree.change number (strip key)).Holds disk.root number (strip key folder) := by
  have hsame := sameFolders_delete disk key tree
  rw [run_delete_eq_strip hholds hexpired] at hsame
  refine ⟨hsame.reach hholds.reach, ?_⟩
  rw [Tree.getElem?_change, if_pos rfl, hholds.folder, Option.map_some]

/-- An expired key with no folder in the place of its data can be deleted. -/
theorem run_delete_of_expired (h : disk.Expired cutoff tree key)
    (hdata : ∀ inner, tree.walk (disk.dataPath key) ≠ .ok (.folder inner)) :
    ∃ after, (disk.delete key).run tree = (.ok true, after) := by
  obtain ⟨sidecar, hplace, -⟩ := id h
  obtain ⟨contents, hread, -⟩ := sidecarAt?_eq_some.mp hplace
  have hname : Path.isName (sidecarName key) = true := isName_fileName key .sidecar
  obtain ⟨number, folder, hholds⟩ := Tree.holds_of_walk_child hname (Tree.walk_of_read hread)
  have hfits := ((hholds.read_child_eq_ok hname).mp hread).1
  have hfree : ¬blocked key folder = true := by
    intro hblocked
    obtain ⟨inner, hinner⟩ := blocked_iff.mp hblocked
    exact hdata inner ((hholds.walk_child_eq_ok (isName_fileName key .data)).mpr
      ⟨fits_dataPath hfits, hinner⟩)
  rw [run_delete_eq_strip hholds h, if_neg hfree]
  exact ⟨_, rfl⟩

end OriginMap.Disk
