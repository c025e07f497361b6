import Mathlib.Data.List.Basic
import OriginMap.Proofs.Disk.Failure
import OriginMap.Proofs.Isolation

/-!
# What removals leave

Removing an artifact and sweeping old ones away take away a key's sidecar, then its data, then its loaded
copy. A failure keeps all three, with one exception: where a folder stands in the place of the data the
sidecar goes all the same, while the loaded copy stays. The artifact is then still answered from the
cache, but no statistics and no later sweep will find it.
-/

namespace OriginMap.Store

open Files Disk

/-- What becomes of a key while artifacts are removed. -/
inductive Fate (disk : Disk) (key : Key) (store after : Store) (tree changed : Tree) : Prop
  /-- Its files and its loaded copy are kept. -/
  | kept (hcached : after.cached? key = store.cached? key)
      (hfiles : ∀ kind, changed.walk (disk.path (fileName key kind)) =
        tree.walk (disk.path (fileName key kind)))
  /-- Its sidecar, its data and its loaded copy are gone. -/
  | gone (hcached : after.cached? key = none)
      (hsidecar : changed.walk (disk.sidecarPath key) = .error .missing)
      (hdata : changed.walk (disk.dataPath key) = .error .missing)
  /-- Its sidecar is gone, and all else is kept; a folder stands in the place of its data. -/
  | stripped (hcached : after.cached? key = store.cached? key)
      (hsidecar : ∃ contents, tree.walk (disk.sidecarPath key) = .ok (.file contents))
      (hlost : changed.walk (disk.sidecarPath key) = .error .missing)
      (hdata : ∃ inner, changed.walk (disk.dataPath key) = .ok (.folder inner) ∧
        tree.walk (disk.dataPath key) = .ok (.folder inner))

variable {application version : String} {disk : Disk} {key other : Key} {store middle after : Store}
  {tree half changed : Tree}

/-- A key has one fate in two removals after one another. -/
theorem Fate.trans (h : Fate disk key store middle tree half)
    (h' : Fate disk key middle after half changed) : Fate disk key store after tree changed := by
  cases h' with
  | gone hcached hsidecar hdata => exact .gone hcached hsidecar hdata
  | kept hcached' hfiles' =>
    cases h with
    | kept hcached hfiles =>
      exact .kept (hcached'.trans hcached) fun kind => (hfiles' kind).trans (hfiles kind)
    | gone hcached hsidecar hdata =>
      exact .gone (hcached'.trans hcached) ((hfiles' .sidecar).trans hsidecar)
        ((hfiles' .data).trans hdata)
    | stripped hcached hsidecar hlost hdata =>
      obtain ⟨inner, hafter, hbefore⟩ := hdata
      exact .stripped (hcached'.trans hcached) hsidecar ((hfiles' .sidecar).trans hlost)
        ⟨inner, (hfiles' .data).trans hafter, hbefore⟩
  | stripped hcached' hsidecar' hlost' hdata' =>
    -- The key still had a sidecar to lose, so the first removal kept it.
    obtain ⟨contents, hfile⟩ := hsidecar'
    cases h with
    | kept hcached hfiles =>
      obtain ⟨inner, hafter, hbefore⟩ := hdata'
      exact .stripped (hcached'.trans hcached) ⟨contents, (hfiles .sidecar).symm.trans hfile⟩ hlost'
        ⟨inner, hafter, (hfiles .data).symm.trans hbefore⟩
    | gone hcached hsidecar hdata => cases hsidecar.symm.trans hfile
    | stripped hcached hsidecar hlost hdata => cases hlost.symm.trans hfile

/-- Nothing becomes of a key while nothing is done. -/
theorem Fate.refl (disk : Disk) (key : Key) (store : Store) (tree : Tree) :
    Fate disk key store store tree tree :=
  .kept rfl fun _ => rfl

/-- A stripped key keeps its loaded copy. -/
theorem fate_of_stripped (h : disk.Stripped key tree changed) (store : Store) :
    Fate disk key store store tree changed := by
  obtain ⟨inner, hdata⟩ := h.data
  have hapart : dataName key ∉ [sidecarName key] :=
    fun hmem => fileName_ne key .data .sidecar (by simp) (List.mem_singleton.mp hmem)
  have hsame := h.beside.walk_child hapart (fileName_ne_empty key .data)
  exact .stripped rfl h.sidecar h.lost ⟨inner, hsame.trans hdata, hdata⟩

/-- A key is kept by what keeps to one with another stem. -/
theorem KeepsTo.fate (h : KeepsTo other store after tree changed) (hstem : key.stem ≠ other.stem) :
    Fate store.disk key store after tree changed :=
  .kept (h.cached key fun hsame => hstem (congrArg Key.stem hsame)) fun kind =>
    walk_fileName_of_sameBeside h.files hstem kind

/-! ## Single removals -/

/-- A removal that fails leaves the store as it was. -/
theorem of_run_remove_error (hmake : Key.make application version = .ok key) {e : StorageError}
    (hrun : (store.remove application version).run tree = ((.error e, after), changed)) :
    after = store ∧ (changed = tree ∨ store.disk.Stripped key tree changed) := by
  rw [Store.remove, hmake] at hrun
  simp only at hrun
  rw [Script.run_bind] at hrun
  rcases hdelete : (store.disk.delete key).run tree with ⟨cause | existed, last⟩
  · simp only [hdelete, Script.run_pure, Prod.mk.injEq] at hrun
    obtain ⟨⟨-, rfl⟩, rfl⟩ := hrun
    exact ⟨rfl, of_run_delete_error hdelete⟩
  · simp [hdelete] at hrun

/-- What evicting a key comes to: nothing is done, or its files are deleted, and its loaded copy is
dropped if that succeeds. -/
theorem run_evictIfExpired (store : Store) (cutoff : Time.Instant) (key : Key) (tree : Tree) :
    (store.evictIfExpired cutoff key).run tree = ((false, store), tree) ∨
      (store.evictIfExpired cutoff key).run tree =
        match (store.disk.delete key).run tree with
        | (.ok _, changed) => ((true, store.forget key), changed)
        | (.error _, changed) => ((false, store), changed) := by
  rw [evictIfExpired, Script.run_bind, readSidecar, run_readSidecarAt]
  cases tree.read (store.disk.sidecarPath key) with
  | error trouble => cases trouble <;> exact Or.inl rfl
  | ok contents =>
    simp only
    cases Sidecar.read contents with
    | error fault => exact Or.inl rfl
    | ok sidecar =>
      simp only
      split_ifs
      · refine Or.inr ?_
        rw [Script.run_bind]
        rcases (store.disk.delete key).run tree with ⟨_ | _, changed⟩ <;> rfl
      · exact Or.inl rfl

/-- An eviction that is not done leaves the store as it was. -/
theorem of_run_evictIfExpired_false {cutoff : Time.Instant}
    (hrun : (store.evictIfExpired cutoff key).run tree = ((false, after), changed)) :
    after = store ∧ (changed = tree ∨ store.disk.Stripped key tree changed) := by
  rcases run_evictIfExpired store cutoff key tree with hnothing | hdone
  · rw [hnothing] at hrun
    simp only [Prod.mk.injEq, true_and] at hrun
    exact ⟨hrun.1.symm, Or.inl hrun.2.symm⟩
  · rw [hdone] at hrun
    rcases hdelete : (store.disk.delete key).run tree with ⟨cause | existed, last⟩
    · simp only [hdelete, Prod.mk.injEq, true_and] at hrun
      obtain ⟨rfl, rfl⟩ := hrun
      exact ⟨rfl, of_run_delete_error hdelete⟩
    · simp [hdelete] at hrun

/-- Evicting a key keeps to it. -/
theorem keepsTo_evictIfExpired (store : Store) (cutoff : Time.Instant) (key : Key) (tree : Tree) :
    KeepsTo key store ((store.evictIfExpired cutoff key).run tree).1.2 tree
      ((store.evictIfExpired cutoff key).run tree).2 := by
  rcases run_evictIfExpired store cutoff key tree with hnothing | hdone
  · rw [hnothing]
    exact .refl key store tree
  · rw [hdone]
    have hdelete := keepsTo_of_delete store key tree
    rcases hrun : (store.disk.delete key).run tree with ⟨cause | existed, changed⟩
    · rw [hrun] at hdelete
      exact hdelete
    · rw [hrun] at hdelete
      exact hdelete.forget

/-- What becomes of a key when it is evicted. -/
theorem fate_evictIfExpired (store : Store) (cutoff : Time.Instant) (key : Key) (tree : Tree) :
    Fate store.disk key store ((store.evictIfExpired cutoff key).run tree).1.2 tree
      ((store.evictIfExpired cutoff key).run tree).2 := by
  rcases run_evictIfExpired store cutoff key tree with hnothing | hdone
  · rw [hnothing]
    exact .refl store.disk key store tree
  · rw [hdone]
    rcases hdelete : (store.disk.delete key).run tree with ⟨cause | existed, changed⟩
    · rcases of_run_delete_error hdelete with rfl | hstripped
      · exact .refl store.disk key store _
      · exact fate_of_stripped hstripped store
    · obtain ⟨hsidecar, hdata⟩ := walk_of_run_delete hdelete
      exact .gone (by simp) hsidecar hdata

/-! ## Sweeps -/

/-- What becomes of a key when some keys are evicted, none of which has the same stem without being
it. -/
theorem fate_evictAll (cutoff : Time.Instant) {keys : List Key}
    (hkeys : ∀ evicted ∈ keys, evicted = key ∨ key.stem ≠ evicted.stem) (hdisk : store.disk = disk)
    (tree : Tree) :
    Fate disk key store ((store.evictAll cutoff keys).run tree).1.2 tree
      ((store.evictAll cutoff keys).run tree).2 := by
  induction keys generalizing store tree with
  | nil => exact .refl disk key store tree
  | cons evicted keys ih =>
    have hfirst : Fate disk key store ((store.evictIfExpired cutoff evicted).run tree).1.2 tree
        ((store.evictIfExpired cutoff evicted).run tree).2 := by
      rw [← hdisk]
      rcases hkeys evicted List.mem_cons_self with rfl | hstem
      · exact fate_evictIfExpired store cutoff evicted tree
      · exact (keepsTo_evictIfExpired store cutoff evicted tree).fate hstem
    have hrest := ih (fun other hother => hkeys other (List.mem_cons_of_mem evicted hother))
      ((keepsTo_evictIfExpired store cutoff evicted tree).disk.trans hdisk)
      ((store.evictIfExpired cutoff evicted).run tree).2
    rw [run_evictAll_cons]
    exact hfirst.trans hrest

/-- What becomes of a key in a sweep, if no sidecar in the data directory names another key with the same
stem. -/
theorem fate_sweepExpired (store : Store) (now : Time.Instant) (age : Time.Span)
    (hlisted : ∀ sidecars, (store.disk.list.run tree).1 = .ok sidecars →
      ∀ sidecar ∈ sidecars, sidecar.key = key ∨ key.stem ≠ sidecar.key.stem) :
    Fate store.disk key store ((store.sweepExpired now age).run tree).1.2 tree
      ((store.sweepExpired now age).run tree).2 := by
  cases hcutoff : now.minus? age with
  | none =>
    rw [sweepExpired, hcutoff]
    exact .refl store.disk key store tree
  | some cutoff =>
    rw [run_sweepExpired hcutoff]
    refine fate_evictAll cutoff (fun evicted hevicted => ?_) rfl tree
    obtain ⟨sidecars, hlist, sidecar, hmem, -, rfl⟩ := mem_listedKeys.mp hevicted
    exact hlisted sidecars hlist sidecar hmem

/-- A removal that fails and an eviction that is not done leave the store as it was. They leave the files
as they were too, but for the sidecar of a key whose data has a folder in its place, which is lost. A
sweep keeps a key, deletes it, or strips it of its sidecar in the same way. -/
theorem kept_unless_stripped (hmake : Key.make application version = .ok key) (store : Store)
    (tree : Tree) :
    (∀ e after changed, (store.remove application version).run tree = ((.error e, after), changed) →
        after = store ∧ (changed = tree ∨ store.disk.Stripped key tree changed)) ∧
      (∀ cutoff after changed,
        (store.evictIfExpired cutoff key).run tree = ((false, after), changed) →
          after = store ∧ (changed = tree ∨ store.disk.Stripped key tree changed)) ∧
      ∀ now age, (∀ sidecars, (store.disk.list.run tree).1 = .ok sidecars →
          ∀ sidecar ∈ sidecars, sidecar.key = key ∨ key.stem ≠ sidecar.key.stem) →
        Fate store.disk key store ((store.sweepExpired now age).run tree).1.2 tree
          ((store.sweepExpired now age).run tree).2 :=
  ⟨fun _ _ _ => of_run_remove_error hmake, fun _ _ _ => of_run_evictIfExpired_false,
    fun now age => fate_sweepExpired store now age⟩

/-- A tree in which a folder stands in the place of a key's data, beside its sidecar. -/
def strippableTree (key : Key) : Tree :=
  ⟨#[⟨0, [("data", .folder 1)]⟩, ⟨0, [(dataName key, .folder 2),
    (sidecarName key, .file (Sidecar.render ⟨key, ⟨0, 0⟩, 5, ""⟩))]⟩, ⟨1, []⟩], .root⟩

/-- A removal and an eviction may fail at a folder in the place of the data, and a sweep that meets the
same folder leaves the key one of its fates. -/
theorem kept_unless_stripped_by_folder :
    let key : Key := ⟨"web", "1"⟩
    let tree := strippableTree key
    let remove := bareStore.remove "web" "1"
    let evict := bareStore.evictIfExpired ⟨1, 0⟩ key
    (∃ after changed,
        remove.run tree = ((.error (.io (bareDisk.dataPath key) .refused), after), changed) ∧
        after = bareStore ∧ (changed = tree ∨ bareDisk.Stripped key tree changed)) ∧
      (∃ after changed, evict.run tree = ((false, after), changed) ∧
        after = bareStore ∧ (changed = tree ∨ bareDisk.Stripped key tree changed)) ∧
      (bareDisk.list.run tree).1 = .ok [⟨key, ⟨0, 0⟩, 5, ""⟩] ∧
      Fate bareDisk key bareStore
        ((bareStore.sweepExpired ⟨86401, 0⟩ ⟨86400, 0⟩).run tree).1.2 tree
        ((bareStore.sweepExpired ⟨86401, 0⟩ ⟨86400, 0⟩).run tree).2 := by
  intro key tree remove evict
  have hkey : Key.make "web" "1" = .ok key := rfl
  have hremoved : remove.run tree = ((.error (.io (bareDisk.dataPath key) .refused),
      (remove.run tree).1.2), (remove.run tree).2) := by
    decide +kernel
  have hevicted : evict.run tree = ((false, (evict.run tree).1.2), (evict.run tree).2) := by
    decide +kernel
  have hlist : (bareDisk.list.run tree).1 = .ok [⟨key, ⟨0, 0⟩, 5, ""⟩] := by decide +kernel
  obtain ⟨hremove, hevict, hsweep⟩ := kept_unless_stripped hkey bareStore tree
  refine ⟨⟨_, _, hremoved, hremove _ _ _ hremoved⟩, ⟨_, _, hevicted, hevict _ _ _ hevicted⟩, hlist,
    hsweep _ _ fun sidecars hsidecars sidecar hmem => Or.inl ?_⟩
  obtain rfl : [⟨key, ⟨0, 0⟩, 5, ""⟩] = sidecars := Except.ok.inj (hlist.symm.trans hsidecars)
  rw [List.mem_singleton.mp hmem]

/-- A sweep that fails at a folder in the place of an old artifact's data counts no removal, yet the
sidecar is gone. The artifact is still answered, though it is in no statistics, and no later sweep removes
it. -/
theorem sidecar_lost_in_failed_sweep :
    let key : Key := ⟨"web", "1"⟩
    let artifact : Artifact := ⟨key, none, ["a.ts"], [none], [], "", ⟨0, 0⟩, 5, ""⟩
    let store : Store := { bareStore with cache := [(key, ⟨0, artifact, .crossLine⟩)] }
    let tree := strippableTree key
    let swept := (store.sweepExpired ⟨86401, 0⟩ ⟨86400, 0⟩).run tree
    let again := (swept.1.2.sweepExpired ⟨172800, 0⟩ ⟨86400, 0⟩).run swept.2
    Key.make "web" "1" = .ok key ∧ swept.1.1 = 0 ∧
      tree.walk (bareDisk.sidecarPath key) =
        .ok (.file (Sidecar.render ⟨key, ⟨0, 0⟩, 5, ""⟩)) ∧
      swept.2.walk (bareDisk.sidecarPath key) = .error .missing ∧
      store.rows? key tree = some [⟨key, 5, ⟨0, 0⟩⟩] ∧ swept.1.2.rows? key swept.2 = some [] ∧
      again.1.1 = 0 ∧ again.1.2.artifact? "web" "1" again.2 = some artifact := by
  decide +kernel

end OriginMap.Store
