import OriginMap.Proofs.Disk.Expiry
import OriginMap.Proofs.Files.Order

/-!
# The data directory in another order

What is read in the data directory does not depend on the order in which it is listed, and the same
sidecars are listed in any order. Stripping it of a key neither looks at the order nor at the names of
other keys, so it may be stripped of keys with different stems one after the other in any order.
-/

namespace OriginMap

open Files

/-- Two names may be erased in any order. -/
theorem Files.Folder.erase_comm (folder : Folder) (first second : String) :
    (folder.erase first).erase second = (folder.erase second).erase first := by
  simp only [erase, List.filter_comm]

namespace Disk

variable {disk : Disk} {cutoff : Time.Instant} {tree changed : Tree} {key other : Key}
  {folder reordered : Folder}

/-! ## Stripping -/

/-- What the names of a key with another stem stand for stays. -/
theorem node?_strip (hstem : other.stem ≠ key.stem) (kind : FileKind) (folder : Folder) :
    (strip key folder).node? (fileName other kind) = folder.node? (fileName other kind) := by
  have hsidecar : fileName other kind ≠ sidecarName key := fileName_ne_of_stem_ne hstem kind .sidecar
  have hdata : fileName other kind ≠ dataName key := fileName_ne_of_stem_ne hstem kind .data
  rw [strip]
  split
  · rw [Folder.node?_erase, if_neg hsidecar]
  · rw [deleted, Folder.node?_erase, if_neg hdata, Folder.node?_erase, if_neg hsidecar]

/-- So does a folder in the place of its data. -/
theorem blocked_strip (hstem : other.stem ≠ key.stem) (folder : Folder) :
    blocked other (strip key folder) = blocked other folder := by
  have hnode : (strip key folder).node? (dataName other) = folder.node? (dataName other) :=
    node?_strip hstem .data folder
  rw [blocked, blocked, hnode]

/-- A folder may be stripped of keys with different stems in any order. -/
theorem strip_strip (hstem : other.stem ≠ key.stem) (folder : Folder) :
    strip other (strip key folder) = strip key (strip other folder) := by
  have hother := blocked_strip hstem folder
  have hkey := blocked_strip hstem.symm folder
  rw [strip, hother, strip, strip, hkey, strip]
  cases blocked other folder <;> cases blocked key folder <;>
    simp only [deleted, Folder.erase_comm, if_true, Bool.false_eq_true, if_false]

/-- The same stands in the place of a key's data in any order. -/
theorem blocked_of_reordered (h : folder.Reordered reordered) :
    blocked key reordered = blocked key folder := by
  rw [blocked, blocked, h.node?_eq]

/-- A folder may be stripped of a key in any order. -/
theorem strip_reordered (h : folder.Reordered reordered) (key : Key) :
    (strip key folder).Reordered (strip key reordered) := by
  rw [strip, strip, blocked_of_reordered h]
  split
  · exact h.erase (sidecarName key)
  · exact (h.erase (sidecarName key)).erase (dataName key)

/-! ## Listing -/

/-- The same sidecars can be read in any order. -/
theorem sidecarAt?_of_reordered (h : tree.Reordered changed) (path : Path) :
    sidecarAt? changed path = sidecarAt? tree path := by
  rw [sidecarAt?, sidecarAt?, h.read_eq]

/-- The same keys have expired in any order. -/
theorem expired_of_reordered (h : tree.Reordered changed) :
    disk.Expired cutoff changed key ↔ disk.Expired cutoff tree key := by
  rw [Expired, Expired, sidecarAt?_of_reordered h]

/-- The same sidecars are listed in some order, or listing fails in the same way. -/
theorem list_of_reordered (disk : Disk) (h : tree.Reordered changed) :
    (∃ e, (disk.list.run tree).1 = .error e ∧ (disk.list.run changed).1 = .error e) ∨
      ∃ sidecars sidecars', (disk.list.run tree).1 = .ok sidecars ∧
        (disk.list.run changed).1 = .ok sidecars' ∧ sidecars.Perm sidecars' := by
  rw [run_list, run_list]
  rcases h.list disk.root with ⟨trouble, hlist, hlist'⟩ | ⟨names, names', hlist, hlist', hnames⟩
  · rw [hlist, hlist']
    exact Or.inl ⟨_, rfl, rfl⟩
  · have hsidecars := (hnames.filter isSidecarName).filterMap
      fun name => sidecarAt? tree (disk.path name)
    rw [hlist, hlist']
    simp only [sidecarAt?_of_reordered h]
    exact Or.inr ⟨_, _, rfl, rfl, hsidecars⟩

end Disk

end OriginMap
