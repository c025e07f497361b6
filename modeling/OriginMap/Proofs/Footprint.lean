import OriginMap.Proofs.Removal

/-!
# A store works on files of its own

Storing and deleting under a key, the disk works on the names of that key. A store therefore works on the
names of the key that it is asked about, whatever the application and the version are. A sweep takes its
keys from the sidecars that it lists, whatever they say, and works on the names of these keys.
-/

namespace OriginMap

open Files

namespace Store

open Disk

variable (store : Store) (application version : String) (tree : Tree)

/-! ## One key -/

/-- The names of the files of the key that a store makes of an application and a version. -/
def KeyName (application version name : String) : Prop :=
  ∃ key, Key.make application version = .ok key ∧ OwnName key name

/-- Taking an artifact in works on the names of its key. -/
theorem worksOn_ingestAt (data : Bytes) (storedAt : Time.Instant) :
    (store.ingestAt application version data storedAt).WorksOn store.disk.root
      (KeyName application version) tree := by
  unfold ingestAt
  cases hmake : Key.make application version with
  | error fault => exact Script.performs_pure _ _ _
  | ok key =>
    simp only
    cases Container.parse key data storedAt with
    | error refusal => exact Script.performs_pure _ _ _
    | ok artifact =>
      simp only
      refine Script.Performs.bind
        ((worksOn_write store.disk key tree data _).mono fun name hname => ⟨key, hmake, hname⟩) ?_
      cases ((store.disk.write key data _).run tree).1 with
      | error cause => exact Script.performs_pure _ _ _
      | ok _ => exact Script.performs_pure _ _ _

/-- Removing an artifact works on the names of its key. -/
theorem worksOn_remove :
    (store.remove application version).WorksOn store.disk.root (KeyName application version)
      tree := by
  unfold Store.remove
  cases hmake : Key.make application version with
  | error fault => exact Script.performs_pure _ _ _
  | ok key =>
    simp only
    refine Script.Performs.bind
      ((worksOn_delete store.disk key tree).mono fun name hname => ⟨key, hmake, hname⟩) ?_
    cases ((store.disk.delete key).run tree).1 with
    | error e => exact Script.performs_pure _ _ _
    | ok existed => exact Script.performs_pure _ _ _

/-! ## Sweeps -/

/-- Evicting a key works on its names. -/
theorem worksOn_evictIfExpired (cutoff : Time.Instant) (key : Key) :
    (store.evictIfExpired cutoff key).WorksOn store.disk.root (OwnName key) tree := by
  refine (worksOn_readSidecar store.disk key _ tree).bind ?_
  rcases ((store.disk.readSidecar key).run tree).1 with e | (_ | sidecar)
  · exact Script.performs_pure _ _ _
  · exact Script.performs_pure _ _ _
  · simp only
    split_ifs
    · refine (worksOn_delete store.disk key _).bind ?_
      cases ((store.disk.delete key).run _).1 with
      | error e => exact Script.performs_pure _ _ _
      | ok _ => exact Script.performs_pure _ _ _
    · exact Script.performs_pure _ _ _

/-- Evicting keys works on their names. -/
theorem worksOn_evictAll (cutoff : Time.Instant) (keys : List Key) :
    (store.evictAll cutoff keys).WorksOn store.disk.root (fun name => ∃ key ∈ keys, OwnName key name)
      tree := by
  induction keys generalizing store tree with
  | nil => exact Script.performs_pure _ _ _
  | cons key keys ih =>
    have hdisk := (keepsTo_evictIfExpired store cutoff key tree).disk
    refine Script.Performs.bind ((worksOn_evictIfExpired store tree cutoff key).mono
      fun name hname => ⟨key, List.mem_cons_self, hname⟩) ?_
    refine Script.Performs.bind ?_ (Script.performs_pure _ _ _)
    rw [← hdisk]
    refine (ih _ _).mono fun name hname => ?_
    obtain ⟨other, hother, hname⟩ := hname
    exact ⟨other, List.mem_cons_of_mem key hother, hname⟩

/-- The names of the files of keys that some listed sidecar names. -/
def ListedName (disk : Disk) (tree : Tree) (name : String) : Prop :=
  ∃ sidecars, (disk.list.run tree).1 = .ok sidecars ∧ ∃ sidecar ∈ sidecars, OwnName sidecar.key name

/-- A sweep works on the names of listed keys. -/
theorem worksOn_sweepExpired (now : Time.Instant) (age : Time.Span) :
    (store.sweepExpired now age).WorksOn store.disk.root (ListedName store.disk tree) tree := by
  rw [sweepExpired]
  cases now.minus? age with
  | none => exact Script.performs_pure _ _ _
  | some cutoff =>
    rw [Option.elim_some]
    refine (worksOn_list store.disk _ tree).bind ?_
    cases hlist : (store.disk.list.run tree).1 with
    | error e => exact Script.performs_pure _ _ _
    | ok sidecars =>
      refine (worksOn_evictAll store _ cutoff _).mono fun name hname => ?_
      obtain ⟨key, hkey, hname⟩ := hname
      obtain ⟨sidecar, hsidecar, rfl⟩ := List.mem_map.mp hkey
      exact ⟨sidecars, hlist, sidecar, List.mem_of_mem_filter hsidecar, hname⟩

/-- Storing and deleting under any key, taking artifacts in, removing and sweeping them are confined to
names of their keys in the data directory, whatever stands there: a name is the stem of the key with one of
four suffixes, it has at most 160 bytes, and no character of it leads out of the directory. A sweep is about
the keys that listed sidecars name. And listing reads no file whose name ends as that of a draft. -/
theorem confined_to_own_names (disk : Disk) (key : Key) (data : Bytes) (sidecar : Sidecar)
    (store : Store) (application version : String) (storedAt now : Time.Instant) (age : Time.Span)
    (tree : Tree) :
    (disk.write key data sidecar).Confined disk.root (OwnName key) tree ∧
      (disk.delete key).Confined disk.root (OwnName key) tree ∧
      (store.ingestAt application version data storedAt).Confined store.disk.root
        (KeyName application version) tree ∧
      (store.remove application version).Confined store.disk.root (KeyName application version)
        tree ∧
      (store.sweepExpired now age).Confined store.disk.root (ListedName store.disk tree) tree ∧
      ∀ operation ∈ disk.list.operations tree, operation = .list disk.root ∨
        ∃ name, operation = .read (disk.path name) ∧ ¬draftSuffix.toList <:+ name.toList := by
  have hown (name : String) (hname : OwnName key name) : Path.isName name = true := hname.isName
  have hkey (name : String) (hname : KeyName application version name) :
      Path.isName name = true := by
    obtain ⟨_, -, hname⟩ := hname
    exact hname.isName
  have hlisted (name : String) (hname : ListedName store.disk tree name) :
      Path.isName name = true := by
    obtain ⟨_, -, _, -, hname⟩ := hname
    exact hname.isName
  exact ⟨(worksOn_write disk key tree data sidecar).confined hown,
    (worksOn_delete disk key tree).confined hown,
    (worksOn_ingestAt store application version tree data storedAt).confined hkey,
    (worksOn_remove store application version tree).confined hkey,
    (worksOn_sweepExpired store tree now age).confined hlisted,
    fun _ => of_mem_operations_list⟩

end Store

end OriginMap
