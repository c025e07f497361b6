import Mathlib.Data.List.Basic
import OriginMap.Proofs.Disk.Confinement
import OriginMap.Proofs.Fingerprint
import OriginMap.Proofs.Store

/-!
# Keys do not disturb one another

A call on one key changes the files of that key and its loaded copy, and nothing else, whether it
succeeds or fails. If the digests of two keys start differently their files have different names, so
what a store has of one key and answers about it stays the same while calls are made on the other.
Statistics go by what sidecars say: a sidecar that stands in one key's place and names the other key
counts as the other's, and goes when the first key is stored or removed. And they are about all keys at
once: when the sizes come to more than a word holds there is no row of any key.
-/

namespace OriginMap

open Files Disk

/-- The artifact that the files of a key hold. -/
def Disk.artifact? (disk : Disk) (key : Key) (tree : Tree) : Option Artifact :=
  match ((disk.read key).run tree).1 with
  | .ok (some (sidecar, data)) => (Container.parse key data sidecar.storedAt).toOption
  | _ => none

namespace Store

/-! ## What a store has of a key -/

/-- The artifact that a store answers when two texts are asked for. -/
def artifact? (store : Store) (application version : String) (tree : Tree) : Option Artifact :=
  ((store.get application version).run tree).1.1.map Snapshot.artifact

/-- The rows of a key in the statistics of a store, if it has statistics. -/
def rows? (store : Store) (key : Key) (tree : Tree) : Option (List ArtifactStat) :=
  (store.stats.run tree).1.map fun stats => stats.perArtifact.filter (·.key = key)

variable {application version : String} {key other : Key} {store after : Store} {tree changed : Tree}
  {rows rows' : List ArtifactStat}

/-- A store answers the loaded copy of a key, and without one what the key's files hold. -/
theorem artifact?_eq (hmake : Key.make application version = .ok key) (store : Store) (tree : Tree) :
    store.artifact? application version tree =
      match store.cached? key with
      | some snapshot => some snapshot.artifact
      | none => store.disk.artifact? key tree := by
  rw [artifact?, Store.get, hmake]
  simp only
  cases store.cached? key with
  | some snapshot => rfl
  | none =>
    simp only [load, Disk.artifact?]
    rw [Script.run_bind]
    rcases (store.disk.read key).run tree with ⟨_ | _ | ⟨sidecar, data⟩, middle⟩
    · rfl
    · rfl
    · simp only
      cases Container.parse key data sidecar.storedAt <;> rfl

/-- A store and its tree differ from what they were in the files of one key and its loaded copy only,
and no sidecar of another key came to stand in the key's place. -/
structure KeepsTo (key : Key) (store after : Store) (tree changed : Tree) : Prop where
  /-- The store works on the same data directory. -/
  disk : after.disk = store.disk
  /-- The data directory is the same beside the files of the key. -/
  files : tree.SameBeside (fileNames key) store.disk.root changed
  /-- The loaded copies of other keys are the same. -/
  cached : ∀ other, other ≠ key → after.cached? other = store.cached? other
  /-- The sidecar in the key's place names the key or stood there before. -/
  sidecar : ∀ found, sidecarAt? changed (store.disk.sidecarPath key) = some found →
    found.key = key ∨ sidecarAt? tree (store.disk.sidecarPath key) = some found

/-- A store that stays as it is keeps to any key. -/
theorem KeepsTo.refl (key : Key) (store : Store) (tree : Tree) : KeepsTo key store store tree tree :=
  ⟨rfl, .refl _ _ tree, fun _ _ => rfl, fun _ => Or.inr⟩

/-- The loaded copy of the key may be dropped. -/
theorem KeepsTo.forget (h : KeepsTo key store after tree changed) :
    KeepsTo key store (after.forget key) tree changed := by
  refine ⟨h.disk, h.files, fun other hne => ?_, h.sidecar⟩
  rw [cached?_forget, if_neg hne, h.cached other hne]

/-- A copy may be loaded for the key. -/
theorem KeepsTo.remember (h : KeepsTo key store after tree changed) (artifact : Artifact) :
    KeepsTo key store (after.remember key artifact).2 tree changed := by
  refine ⟨h.disk, h.files, fun other hne => ?_, h.sidecar⟩
  rw [cached?_remember, if_neg hne, h.cached other hne]

/-- Taking an artifact in keeps to its key. -/
theorem keepsTo_ingestAt (hmake : Key.make application version = .ok key) (store : Store)
    (data : Bytes) (storedAt : Time.Instant) (tree : Tree) :
    KeepsTo key store ((store.ingestAt application version data storedAt).run tree).1.2 tree
      ((store.ingestAt application version data storedAt).run tree).2 := by
  rw [ingestAt, hmake]
  simp only
  cases Container.parse key data storedAt with
  | error refusal => exact .refl key store tree
  | ok artifact =>
    let sidecar : Sidecar :=
      { key, storedAt, sizeBytes := artifact.sizeBytes, sha256 := artifact.sha256 }
    have hwrite : KeepsTo key store store tree ((store.disk.write key data sidecar).run tree).2 :=
      ⟨rfl, sameBeside_write store.disk key data sidecar tree, fun _ _ => rfl,
        fun _ => sidecar_of_run_write rfl⟩
    simp only
    rw [Script.run_bind]
    rcases hrun : (store.disk.write key data sidecar).run tree with ⟨_ | _, changed⟩
    · rw [hrun] at hwrite
      exact hwrite.forget
    · rw [hrun] at hwrite
      exact hwrite.remember artifact

/-- Asking for an artifact keeps to its key. -/
theorem keepsTo_get (hmake : Key.make application version = .ok key) (store : Store) (tree : Tree) :
    KeepsTo key store ((store.get application version).run tree).1.2 tree
      ((store.get application version).run tree).2 := by
  rw [Store.get, hmake]
  simp only
  cases store.cached? key with
  | some snapshot => exact .refl key store tree
  | none =>
    simp only [load]
    rw [Script.run_bind]
    have hsame := run_read_snd store.disk key tree
    rcases hrun : (store.disk.read key).run tree with ⟨_ | _ | ⟨sidecar, data⟩, middle⟩
    all_goals
      rw [hrun] at hsame
      obtain rfl : middle = tree := hsame
    · exact .refl key store middle
    · exact .refl key store middle
    · simp only
      cases Container.parse key data sidecar.storedAt with
      | error refusal => exact .refl key store middle
      | ok artifact => exact (KeepsTo.refl key store middle).remember artifact

/-- Deleting the files of a key keeps to it. -/
theorem keepsTo_of_delete (store : Store) (key : Key) (tree : Tree) :
    KeepsTo key store store tree ((store.disk.delete key).run tree).2 :=
  ⟨rfl, sameBeside_delete store.disk key tree, fun _ _ => rfl,
    fun _ hfound => Or.inr (sidecar_of_run_delete hfound)⟩

/-- Removing an artifact keeps to its key. -/
theorem keepsTo_remove (hmake : Key.make application version = .ok key) (store : Store)
    (tree : Tree) :
    KeepsTo key store ((store.remove application version).run tree).1.2 tree
      ((store.remove application version).run tree).2 := by
  have hdelete := keepsTo_of_delete store key tree
  rw [Store.remove, hmake]
  simp only
  rw [Script.run_bind]
  rcases hrun : (store.disk.delete key).run tree with ⟨_ | existed, changed⟩
  · rw [hrun] at hdelete
    exact hdelete
  · rw [hrun] at hdelete
    exact hdelete.forget

/-- A store answers the same about a key with another stem. -/
theorem KeepsTo.artifact? (h : KeepsTo key store after tree changed) (hstem : other.stem ≠ key.stem)
    (hmake : Key.make application version = .ok other) :
    after.artifact? application version changed = store.artifact? application version tree := by
  have hne : other ≠ key := fun hsame => hstem (congrArg Key.stem hsame)
  have hread := run_read_of_sameBeside h.files hstem
  rw [artifact?_eq hmake, artifact?_eq hmake, h.cached other hne, h.disk, Disk.artifact?,
    Disk.artifact?, hread]

/-- A store on the bare data directory with nothing loaded. -/
def bareStore : Store := ⟨bareDisk, .crossLine, [], {}⟩

end Store

end OriginMap
