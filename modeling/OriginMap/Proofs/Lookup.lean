import OriginMap.Proofs.FailedIngest
import OriginMap.Proofs.Sweep

/-!
# What is looked up on a damaged disk

Asked for a key that is not loaded, a store answers what the key's files hold, and nothing if they are
missing or damaged in any way; nothing is then remembered, so that repaired files are found. A loaded
key is answered without a look at the disk. What one call leaves of its loaded copy is all that a
history of calls needs, and so the answer stays until the key itself is taken in, removed or swept.
-/

namespace OriginMap

open Files

/-- The files of a key hold an artifact: its sidecar can be read, its data can be read and has the
digest that the sidecar tells, and the data is a container of the artifact. -/
def Disk.Stands (disk : Disk) (key : Key) (tree : Tree) (artifact : Artifact) : Prop :=
  ∃ contents sidecar data, tree.read (disk.sidecarPath key) = .ok contents ∧
    Sidecar.read contents = .ok sidecar ∧ tree.read (disk.dataPath key) = .ok data ∧
      Sha256.hexDigest data = sidecar.sha256 ∧ Container.parse key data sidecar.storedAt = .ok artifact

namespace Disk

/-- An operation reads the sidecar or the data of a key. -/
def ReadsOf (disk : Disk) (key : Key) (operation : Operation) : Prop :=
  operation = .read (disk.sidecarPath key) ∨ operation = .read (disk.dataPath key)

/-- Reading a key performs nothing but reads of its sidecar and its data. -/
theorem performs_read (disk : Disk) (key : Key) (tree : Tree) :
    (disk.read key).Performs (ReadsOf disk key) tree := by
  have hsidecar : (disk.readSidecar key).Performs (ReadsOf disk key) tree := by
    intro operation hoperation
    rw [readSidecar, operations_readSidecarAt] at hoperation
    exact Or.inl (List.mem_singleton.mp hoperation)
  refine hsidecar.bind ?_
  rcases ((disk.readSidecar key).run tree).1 with e | (_ | sidecar)
  · exact Script.performs_pure _ _ _
  · exact Script.performs_pure _ _ _
  · refine (Script.performs_perform (Or.inr rfl) _).bind ?_
    generalize ((Script.perform _).run _).1 = answer
    rcases answer with (_ | _) | data
    · exact Script.performs_pure _ _ _
    · exact Script.performs_pure _ _ _
    · simp only
      split <;> exact Script.performs_pure _ _ _

end Disk

namespace Store

open Disk

variable {application version : String} {key other : Key} {store later : Store} {tree : Tree}
  {snapshot : Snapshot} {artifact : Artifact} {call : Call}

/-! ## Single lookups -/

/-- A loaded copy is answered, and nothing changes. -/
theorem run_get_of_cached (hmake : Key.make application version = .ok key)
    (hcached : store.cached? key = some snapshot) (tree : Tree) :
    (store.get application version).run tree = ((some snapshot, store), tree) := by
  rw [Store.get, hmake]
  simp only [hcached]
  rfl

/-- An artifact that the files of a key hold is answered and loaded. -/
theorem run_get_of_stands (hmake : Key.make application version = .ok key)
    (hcached : store.cached? key = none) (h : store.disk.Stands key tree artifact) :
    (store.get application version).run tree =
      ((some (store.remember key artifact).1, (store.remember key artifact).2), tree) := by
  obtain ⟨contents, sidecar, data, hsidecar, hcontents, hdata, hdigest, hparse⟩ := h
  have hread : (store.disk.read key).run tree = (.ok (some (sidecar, data)), tree) :=
    Prod.ext (run_read_eq_some.mpr ⟨contents, hsidecar, hcontents, hdata, hdigest⟩)
      (run_read_snd store.disk key tree)
  rw [Store.get, hmake]
  simp only [hcached, load]
  rw [Script.run_bind, hread]
  simp only [hparse]
  rfl

/-- Nothing is answered where the files of a key hold no artifact, and nothing changes. -/
theorem run_get_of_not_stands (hmake : Key.make application version = .ok key)
    (hcached : store.cached? key = none) (h : ∀ artifact, ¬store.disk.Stands key tree artifact) :
    (store.get application version).run tree = ((none, store), tree) := by
  have hsame := run_read_snd store.disk key tree
  rw [Store.get, hmake]
  simp only [hcached, load]
  rw [Script.run_bind]
  rcases hread : (store.disk.read key).run tree with ⟨_ | _ | ⟨sidecar, data⟩, middle⟩
  all_goals
    rw [hread] at hsame
    obtain rfl : middle = tree := hsame
  · rfl
  · rfl
  · cases hparse : Container.parse key data sidecar.storedAt with
    | error refusal => simp only [hparse, Script.run_pure]
    | ok artifact =>
      obtain ⟨contents, hsidecar, hcontents, hdata, hdigest⟩ :=
        run_read_eq_some.mp (congrArg Prod.fst hread)
      exact absurd ⟨contents, sidecar, data, hsidecar, hcontents, hdata, hdigest, hparse⟩ (h artifact)

/-- A lookup performs nothing but reads of the key's sidecar and data. -/
theorem performs_get (hmake : Key.make application version = .ok key) (store : Store) (tree : Tree) :
    (store.get application version).Performs (ReadsOf store.disk key) tree := by
  rw [Store.get, hmake]
  simp only
  cases store.cached? key with
  | some snapshot => exact Script.performs_pure _ _ _
  | none =>
    refine (performs_read store.disk key tree).bind ?_
    rcases ((store.disk.read key).run tree).1 with e | (_ | ⟨sidecar, data⟩)
    · exact Script.performs_pure _ _ _
    · exact Script.performs_pure _ _ _
    · simp only
      cases Container.parse key data sidecar.storedAt with
      | error refusal => exact Script.performs_pure _ _ _
      | ok artifact => exact Script.performs_pure _ _ _

/-- A lookup changes no file. -/
theorem run_get_snd (hmake : Key.make application version = .ok key) (store : Store) (tree : Tree) :
    ((store.get application version).run tree).2 = tree := by
  cases hcached : store.cached? key with
  | some snapshot => rw [run_get_of_cached hmake hcached]
  | none =>
    by_cases hstands : ∃ artifact, store.disk.Stands key tree artifact
    · obtain ⟨artifact, hstands⟩ := hstands
      rw [run_get_of_stands hmake hcached hstands]
    · rw [run_get_of_not_stands hmake hcached (not_exists.mp hstands)]

/-! ## Later lookups -/

/-- A call handles a key if it takes it in or removes it, if it opens the store anew, or if it is a
sweep that takes the key from a listed sidecar and finds that the key's own sidecar has expired. -/
def Call.Handles (key : Key) (store : Store) (tree : Tree) : Call → Prop
  | reopen _ => True
  | ingest application version _ _ | remove application version => Key.make application version = .ok key
  | sweep now age => ∃ cutoff, now.minus? age = some cutoff ∧ key ∈ listedKeys store.disk cutoff tree ∧
    store.disk.Expired cutoff tree key
  | get _ _ | sourceContent _ _ _ | stats => False

/-- A store comes from an earlier one by calls that do not handle a key, each on any tree, and by the
building of indexes. -/
inductive Spared (key : Key) (store : Store) : Store → Prop
  /-- Nothing was done. -/
  | refl : Spared key store store
  /-- A call was made. -/
  | call {middle : Store} (h : Spared key store middle) (call : Call) (tree : Tree)
    (hcall : ¬call.Handles key middle tree) : Spared key store ((call.perform middle).run tree).1.2
  /-- The index of a copy was built. -/
  | index {middle : Store} (h : Spared key store middle) (snapshot : Snapshot) :
    Spared key store (middle.noteIndex snapshot)

/-- A lookup, of this key or of another, keeps a loaded copy. -/
theorem cached?_get (hcached : store.cached? key = some snapshot) (application version : String)
    (tree : Tree) :
    ((store.get application version).run tree).1.2.cached? key = some snapshot := by
  cases hmake : Key.make application version with
  | error fault =>
    rw [Store.get, hmake]
    exact hcached
  | ok other =>
    by_cases hsame : other = key
    · subst hsame
      rw [run_get_of_cached hmake hcached]
      exact hcached
    · rw [(keepsTo_get hmake store tree).cached key (Ne.symm hsame)]
      exact hcached

/-- A sweep that does not take a key from a listed sidecar, or finds that the key has not expired, keeps
its copy. -/
theorem cached?_sweepExpired {now : Time.Instant} {age : Time.Span}
    (h : ∀ cutoff, now.minus? age = some cutoff → key ∈ listedKeys store.disk cutoff tree →
      ¬store.disk.Expired cutoff tree key) :
    ((store.sweepExpired now age).run tree).1.2.cached? key = store.cached? key := by
  cases hcutoff : now.minus? age with
  | none =>
    rw [sweepExpired, hcutoff]
    rfl
  | some cutoff =>
    rw [run_sweepExpired hcutoff]
    by_cases hlisted : key ∈ listedKeys store.disk cutoff tree
    · by_contra hne
      exact h cutoff hcutoff hlisted ((swept_evictAll store cutoff _ tree).cached key hne).1
    · exact cached?_evictAll hlisted store cutoff tree

/-- A call that does not handle a loaded key keeps its copy. -/
theorem cached?_perform (hcached : store.cached? key = some snapshot)
    (hcall : ¬call.Handles key store tree) :
    ((call.perform store).run tree).1.2.cached? key = some snapshot := by
  cases call with
  | reopen mode => exact absurd trivial hcall
  | ingest application version data storedAt =>
    rw [Call.perform, Script.run_bind]
    cases hmake : Key.make application version with
    | error fault =>
      rw [ingestAt, hmake]
      exact hcached
    | ok other =>
      have hne : key ≠ other := fun hsame => hcall (hsame ▸ hmake)
      exact ((keepsTo_ingestAt hmake store data storedAt tree).cached key hne).trans hcached
  | get application version =>
    rw [Call.perform, Script.run_bind]
    exact cached?_get hcached application version tree
  | sourceContent application version hint =>
    rw [Call.perform, Script.run_bind, Store.sourceContent, Script.run_bind]
    exact cached?_get hcached application version tree
  | remove application version =>
    rw [Call.perform, Script.run_bind]
    cases hmake : Key.make application version with
    | error fault =>
      rw [Store.remove, hmake]
      exact hcached
    | ok other =>
      have hne : key ≠ other := fun hsame => hcall (hsame ▸ hmake)
      exact ((keepsTo_remove hmake store tree).cached key hne).trans hcached
  | sweep now age =>
    have hspared : ∀ cutoff, now.minus? age = some cutoff →
        key ∈ listedKeys store.disk cutoff tree → ¬store.disk.Expired cutoff tree key :=
      fun cutoff hcutoff hlisted hexpired => hcall ⟨cutoff, hcutoff, hlisted, hexpired⟩
    have hkept := cached?_sweepExpired hspared
    rw [Call.perform, Script.run_bind]
    rcases hrun : (store.sweepExpired now age).run tree with ⟨⟨count, after⟩, changed⟩
    rw [hrun] at hkept
    exact hkept.trans hcached
  | stats =>
    rw [Call.perform, Script.run_bind, Script.run_pure]
    exact hcached

/-- While a loaded key is not handled, its copy stays. -/
theorem Spared.cached? (h : Spared key store later) (hcached : store.cached? key = some snapshot) :
    later.cached? key = some snapshot := by
  induction h with
  | refl => exact hcached
  | call _ call tree hcall ih => exact cached?_perform ih hcall
  | index _ _ ih => exact ih

/-- Of a valid key that is not loaded a lookup answers, on any tree, the artifact that the key's files
hold and nothing if they hold none. It loads what it answers; after a vain lookup the store is as it
was, and finds the artifact once the files hold one. No lookup changes a file or does anything but read.
A loaded key has one answer, whatever becomes of the files, until it is handled. -/
theorem lookup_on_damaged_disk (hmake : Key.make application version = .ok key) (store : Store) :
    (store.cached? key = none → ∀ tree,
      let lookup := (store.get application version).run tree
      (∀ artifact, lookup.1.1.map Snapshot.artifact = some artifact ↔
        store.disk.Stands key tree artifact) ∧
      (∀ snapshot, lookup.1.1 = some snapshot → ∀ other,
        lookup.1.2.cached? other = if other = key then some snapshot else store.cached? other) ∧
      (lookup.1.1 = none → lookup.1.2 = store ∧ ∀ repaired artifact,
        store.disk.Stands key repaired artifact →
          ((lookup.1.2.get application version).run repaired).1.1.map Snapshot.artifact =
            some artifact)) ∧
    (∀ tree, ((store.get application version).run tree).2 = tree ∧
      ∀ operation ∈ (store.get application version).operations tree,
        operation = .read (store.disk.sidecarPath key) ∨
          operation = .read (store.disk.dataPath key)) ∧
    ∀ snapshot, store.cached? key = some snapshot → ∀ later, Spared key store later → ∀ tree,
      (later.get application version).run tree = ((some snapshot, later), tree) := by
  refine ⟨fun hcached tree => ?_,
    fun tree => ⟨run_get_snd hmake store tree, performs_get hmake store tree⟩,
    fun snapshot hcached later hspared => run_get_of_cached hmake (hspared.cached? hcached)⟩
  intro lookup
  have hanswer (tree : Tree) (artifact : Artifact) :
      ((store.get application version).run tree).1.1.map Snapshot.artifact = some artifact ↔
        store.disk.Stands key tree artifact := by
    have hfiles := artifact?_eq hmake store tree
    rw [hcached] at hfiles
    rw [← artifact?, hfiles]
    exact artifact?_eq_some
  by_cases hstands : ∃ artifact, store.disk.Stands key tree artifact
  · obtain ⟨artifact, hstands⟩ := hstands
    have hlookup : lookup = _ := run_get_of_stands hmake hcached hstands
    refine ⟨hanswer tree, fun snapshot hsome other => ?_, fun hnone => ?_⟩
    · rw [hlookup] at hsome ⊢
      rw [cached?_remember, Option.some.inj hsome]
    · rw [hlookup] at hnone
      cases hnone
  · have hlookup : lookup = _ := run_get_of_not_stands hmake hcached (not_exists.mp hstands)
    refine ⟨hanswer tree, fun snapshot hsome => ?_, fun _ => ?_⟩
    · rw [hlookup] at hsome
      cases hsome
    · rw [hlookup]
      exact ⟨rfl, fun repaired artifact => (hanswer repaired artifact).mpr⟩

/-- The files of a key hold the artifact whose data and sidecar were stored under it. -/
theorem stands_of_stored {disk : Disk} {number : ℕ} {folder : Folder} {data : Bytes} {sidecar : Sidecar}
    (hroom : disk.HasRoom key) (hshown : sidecar.storedAt.Shown)
    (hholds : tree.Holds disk.root number (stored folder key data sidecar))
    (hdigest : Sha256.hexDigest data = sidecar.sha256)
    (hparse : Container.parse key data sidecar.storedAt = .ok artifact) :
    disk.Stands key tree artifact := by
  have hread (kind : FileKind) {contents : Bytes}
      (hnode : (stored folder key data sidecar).node? (fileName key kind) = some (.file contents)) :
      tree.read (disk.path (fileName key kind)) = .ok contents :=
    (hholds.read_child_eq_ok (isName_fileName key kind)).mpr ⟨hroom kind, hnode⟩
  have hrender : Sidecar.read sidecar.render = .ok sidecar :=
    Sidecar.read_render hshown.read?_timestamp
  have hnode := node?_stored folder key data sidecar
  exact ⟨sidecar.render, sidecar, data, hread .sidecar (hnode .sidecar), hrender,
    hread .data (hnode .data), hdigest, hparse⟩

/-- A folder in the place of the data is none; once the files are repaired the artifact is found, and it
stays while they are gone and another key is removed. -/
theorem lookup_of_repaired :
    let key : Key := ⟨"web", "1"⟩
    let sidecar : Sidecar :=
      ⟨key, ⟨0, 0⟩, UInt64.ofNat smallContainer.length, Sha256.hexDigest smallContainer⟩
    let shelf := stored ⟨0, []⟩ key smallContainer sidecar
    let damaged : Tree := ⟨#[⟨0, [("data", .folder 1)]⟩, shelf.put (dataName key) (.folder 2),
      ⟨1, []⟩], .root⟩
    let repaired : Tree := ⟨#[⟨0, [("data", .folder 1)]⟩, shelf], .root⟩
    Key.make "web" "1" = .ok key ∧
      (bareStore.get "web" "1").run damaged = ((none, bareStore), damaged) ∧
      ∃ snapshot after, (bareStore.get "web" "1").run repaired = ((some snapshot, after), repaired) ∧
        snapshot.artifact = smallArtifact key ∧
        let later := ((Call.perform after (.remove "shop" "2")).run bareTree).1.2
        ∀ tree, (later.get "web" "1").run tree = ((some snapshot, later), tree) := by
  intro key sidecar shelf damaged repaired
  have hmake : Key.make "web" "1" = .ok key := rfl
  have hdamaged (artifact : Artifact) : ¬bareDisk.Stands key damaged artifact := by
    rintro ⟨-, -, data, -, -, hdata, -, -⟩
    have hholds : damaged.Holds bareDisk.root 1 (shelf.put (dataName key) (.folder 2)) := ⟨rfl, rfl⟩
    obtain ⟨-, hnode⟩ := (hholds.read_child_eq_ok (isName_fileName key .data)).mp hdata
    have hname : fileName key .data = dataName key := rfl
    rw [Folder.node?_put, if_pos hname] at hnode
    cases hnode
  have hrepaired : bareDisk.Stands key repaired (smallArtifact key) := by
    have hholds : repaired.Holds bareDisk.root 1 shelf := ⟨rfl, rfl⟩
    have hread : Container.read smallContainer =
        .ok { sources := some (some ["a.ts"]), mappings := some (some "") } := by decide +kernel
    have hparse : Container.parse key smallContainer sidecar.storedAt = .ok (smallArtifact key) := by
      rw [Container.parse, hread]
      rfl
    exact stands_of_stored (hasRoom_bareDisk key) ⟨rfl, Or.inl (by decide)⟩ hholds rfl hparse
  obtain ⟨hlookup, hsame, -⟩ := lookup_on_damaged_disk hmake bareStore
  have hvain : (bareStore.get "web" "1").run damaged = ((none, bareStore), damaged) := by
    obtain ⟨hanswer, -, hnone⟩ := hlookup rfl damaged
    have htree := (hsame damaged).1
    rcases hrun : (bareStore.get "web" "1").run damaged with ⟨⟨found, after⟩, changed⟩
    simp only [hrun] at hanswer hnone htree
    cases found with
    | some snapshot => exact absurd ((hanswer snapshot.artifact).mp rfl) (hdamaged snapshot.artifact)
    | none => rw [htree, (hnone rfl).1]
  refine ⟨hmake, hvain, ?_⟩
  obtain ⟨hanswer, hloaded, -⟩ := hlookup rfl repaired
  have htree := (hsame repaired).1
  rcases hrun : (bareStore.get "web" "1").run repaired with ⟨⟨found, after⟩, changed⟩
  simp only [hrun] at hanswer hloaded htree
  have hfound := (hanswer (smallArtifact key)).mpr hrepaired
  cases found with
  | none => cases hfound
  | some snapshot =>
    have hcached := (hloaded snapshot rfl key).trans (if_pos rfl)
    have hspares : ¬(Call.remove "shop" "2").Handles key after bareTree := by
      show ¬Key.make "shop" "2" = .ok key
      decide
    refine ⟨snapshot, after, by rw [htree], Option.some.inj hfound, ?_⟩
    exact (lookup_on_damaged_disk hmake after).2.2 snapshot hcached _ (.call .refl _ bareTree hspares)

end Store

end OriginMap
