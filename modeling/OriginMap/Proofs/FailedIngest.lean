import Mathlib.Data.List.Basic
import OriginMap.Proofs.Disk.Failure
import OriginMap.Proofs.Disk.Room
import OriginMap.Proofs.Files.Opening
import OriginMap.Proofs.Isolation

/-!
# What failed ingests leave

Data that is refused changes nothing. When writing fails the loaded copy is dropped, and on disk the key
has what it had or no sidecar. The store then answers the artifact that the files held or none, and so
does a store that is opened anew, if opening it does not make the path of the data directory lead
elsewhere.
-/

namespace OriginMap

open Files

/-- A folder that is there stays where the folders stay the same. -/
theorem Files.Tree.SameFolders.folderAt {tree other : Tree} (h : tree.SameFolders other) {root : Path}
    {folder : Folder} (hfolder : tree.folderAt root = .ok folder) :
    ∃ changed, other.folderAt root = .ok changed := by
  obtain ⟨number, hwalk, hholds⟩ := Tree.Holds.of_folderAt hfolder
  obtain ⟨changed, hchanged⟩ := h.holds hholds
  exact ⟨changed, hchanged.folderAt (h.walk hwalk)⟩

namespace Disk

variable {disk : Disk} {key : Key} {tree after : Tree}

/-- The files of a key hold an artifact exactly if both can be read, belong together and hold it. -/
theorem artifact?_eq_some {artifact : Artifact} : disk.artifact? key tree = some artifact ↔
    ∃ contents sidecar data, tree.read (disk.sidecarPath key) = .ok contents ∧
      Sidecar.read contents = .ok sidecar ∧ tree.read (disk.dataPath key) = .ok data ∧
        Sha256.hexDigest data = sidecar.sha256 ∧
          Container.parse key data sidecar.storedAt = .ok artifact := by
  rw [artifact?]
  constructor
  · intro h
    split at h
    · next sidecar data hread =>
      obtain ⟨contents, hsidecar, hcontents, hdata, hdigest⟩ := run_read_eq_some.mp hread
      refine ⟨contents, sidecar, data, hsidecar, hcontents, hdata, hdigest, ?_⟩
      cases hparse : Container.parse key data sidecar.storedAt with
      | error refusal => simp [hparse, Except.toOption] at h
      | ok found => simpa [hparse, Except.toOption] using h
    · cases h
  · rintro ⟨contents, sidecar, data, hsidecar, hcontents, hdata, hdigest, hparse⟩
    have hread : ((disk.read key).run tree).1 = .ok (some (sidecar, data)) :=
      run_read_eq_some.mpr ⟨contents, hsidecar, hcontents, hdata, hdigest⟩
    rw [hread]
    simp only [hparse, Except.toOption]

/-- The files of a key hold the same artifact where the same can be read of them. -/
theorem artifact?_congr
    (hsidecar : ∀ contents, after.read (disk.sidecarPath key) = .ok contents ↔
      tree.read (disk.sidecarPath key) = .ok contents)
    (hdata : ∀ contents, after.read (disk.dataPath key) = .ok contents ↔
      tree.read (disk.dataPath key) = .ok contents) :
    disk.artifact? key after = disk.artifact? key tree := by
  ext artifact
  simp only [artifact?_eq_some, hsidecar, hdata]

/-- Without a sidecar the files of a key hold no artifact. -/
theorem artifact?_eq_none (h : tree.walk (disk.sidecarPath key) = .error .missing) :
    disk.artifact? key tree = none := by
  rw [Option.eq_none_iff_forall_ne_some]
  intro artifact hartifact
  obtain ⟨contents, -, -, hread, -⟩ := artifact?_eq_some.mp hartifact
  rw [Tree.read, h] at hread
  cases hread

end Disk

namespace Store

open Disk

variable {application version : String} {data : Bytes} {storedAt : Time.Instant} {key : Key}
  {store after opened : Store} {tree changed : Tree}

/-! ## Opening -/

/-- A store that is opened answers what the files of a key held before it was opened, unless the data
directory was missing and its path leads back. -/
theorem artifact?_of_openAt {root : Path} {mode : Accumulation} {ledger : Ledger}
    (hroot : (∃ folder, tree.folderAt root = .ok folder) ∨ ".." ∉ tree.way root)
    (hopen : (openAt root mode ledger).run tree = (.ok opened, changed))
    (hmake : Key.make application version = .ok key) :
    opened.artifact? application version changed = (Disk.mk root).artifact? key tree := by
  rw [openAt, Script.run_bind, makeReady, Script.run_bind] at hopen
  rcases hrun : (Script.makeFolders root).run tree with ⟨trouble | _, made⟩
  · simp [hrun] at hopen
  · simp only [hrun, Script.run_pure, Prod.mk.injEq, Except.ok.injEq] at hopen
    obtain ⟨rfl, rfl⟩ := hopen
    have hread (kind : FileKind) (contents : Bytes) :
        made.read (root.child (fileName key kind)) = .ok contents ↔
          tree.read (root.child (fileName key kind)) = .ok contents := by
      -- A data directory that is there stays as it is; where it is missing only folders are made.
      rcases hroot with ⟨folder, hfolder⟩ | hback
      · rw [Script.run_makeFolders hfolder] at hrun
        obtain rfl : tree = made := (Prod.mk.inj hrun).2
        exact Iff.rfl
      · have hfiles := (Script.adds_makeFolders root).sameFiles tree
        rw [hrun] at hfiles
        exact hfiles.read (Tree.notMem_way_child hback
          (Path.isName_iff.mp (isName_fileName key kind)).2.2.1)
    rw [artifact?_eq hmake]
    exact artifact?_congr (hread .sidecar) (hread .data)

/-! ## Failures -/

/-- An ingest fails and changes nothing, or it fails at a write, after which the key has no loaded copy
and what it had on disk or no sidecar. -/
theorem of_run_ingestAt_error {e : IngestError}
    (hrun : (store.ingestAt application version data storedAt).run tree =
      ((.error e, after), changed)) :
    ((∀ cause, e ≠ .storage cause) ∧ after = store ∧ changed = tree) ∨
      ∃ key cause, e = .storage cause ∧ Key.make application version = .ok key ∧
        after = store.forget key ∧ tree.SameFolders changed ∧
          (changed = tree ∨ changed.walk (store.disk.sidecarPath key) = .error .missing) := by
  unfold ingestAt at hrun
  cases hmake : Key.make application version with
  | error fault =>
    simp only [hmake, Script.run_pure, Prod.mk.injEq, Except.error.injEq] at hrun
    obtain ⟨⟨rfl, rfl⟩, rfl⟩ := hrun
    exact Or.inl ⟨nofun, rfl, rfl⟩
  | ok key =>
    cases hparse : Container.parse key data storedAt with
    | error refusal =>
      simp only [hmake, hparse, Script.run_pure, Prod.mk.injEq, Except.error.injEq] at hrun
      obtain ⟨⟨rfl, rfl⟩, rfl⟩ := hrun
      exact Or.inl ⟨nofun, rfl, rfl⟩
    | ok artifact =>
      simp only [hmake, hparse] at hrun
      rw [Script.run_bind] at hrun
      have hfolders := sameFolders_write store.disk key tree data
        ⟨key, storedAt, artifact.sizeBytes, artifact.sha256⟩
      rcases hwrite : (store.disk.write key data
        ⟨key, storedAt, artifact.sizeBytes, artifact.sha256⟩).run tree with ⟨cause | _, last⟩
      · rw [hwrite] at hfolders
        simp only [hwrite, Script.run_pure, Prod.mk.injEq, Except.error.injEq] at hrun
        obtain ⟨⟨rfl, rfl⟩, rfl⟩ := hrun
        exact Or.inr ⟨key, cause, rfl, rfl, rfl, hfolders, of_run_write_error hwrite⟩
      · simp [hwrite] at hrun

/-- An ingest that fails over its key or its data changes neither the store nor any file. One that fails
at a write leaves the key without a loaded copy, and on disk everything as it was or no sidecar of the
key. The store then answers what the key's files held before or nothing, and a store that is opened anew
on the data directory gives the same answer, unless the data directory was missing and its path leads
back. -/
theorem one_answer_after_failed_ingest {e : IngestError}
    (hrun : (store.ingestAt application version data storedAt).run tree =
      ((.error e, after), changed)) :
    match e with
    | .invalidKey _ | .refused _ => after = store ∧ changed = tree
    | .storage _ => ∃ key, Key.make application version = .ok key ∧ after.cached? key = none ∧
        (changed = tree ∨ changed.walk (store.disk.sidecarPath key) = .error .missing) ∧
        (after.artifact? application version changed = store.disk.artifact? key tree ∨
          after.artifact? application version changed = none) ∧
        ((∃ folder, tree.folderAt store.disk.root = .ok folder) ∨ ".." ∉ tree.way store.disk.root →
          ∀ mode ledger opened reopened,
            (openAt store.disk.root mode ledger).run changed = (.ok opened, reopened) →
              opened.artifact? application version reopened =
                after.artifact? application version changed) := by
  rcases of_run_ingestAt_error hrun with ⟨hother, hsame⟩ |
    ⟨key, cause, rfl, hmake, rfl, hfolders, hleft⟩
  · cases e with
    | invalidKey fault => exact hsame
    | refused refusal => exact hsame
    | storage cause => exact absurd rfl (hother cause)
  · have hcached : (store.forget key).cached? key = none := by simp
    have hanswer : (store.forget key).artifact? application version changed =
        store.disk.artifact? key changed := by
      rw [artifact?_eq hmake, hcached]
      rfl
    refine ⟨key, hmake, hcached, hleft, ?_, fun hroot mode ledger opened reopened hopen => ?_⟩
    · rw [hanswer]
      rcases hleft with rfl | hmissing
      · exact Or.inl rfl
      · exact Or.inr (artifact?_eq_none hmissing)
    · have hroot' : (∃ folder, changed.folderAt store.disk.root = .ok folder) ∨
          ".." ∉ changed.way store.disk.root := by
        refine hroot.imp (fun ⟨folder, hfolder⟩ => hfolders.folderAt hfolder) fun hback => ?_
        rwa [Tree.way, hfolders.here, ← Tree.way]
      rw [hanswer, artifact?_of_openAt hroot' hopen hmake]

/-- A container with one source. -/
def smallContainer : Bytes := utf8 "\x7b\"sources\":[\"a.ts\"],\"mappings\":\"\"\x7d"

/-- The artifact that the small container holds under a key. -/
def smallArtifact (key : Key) : Artifact :=
  ⟨key, none, ["a.ts"], [none], [], "", ⟨0, 0⟩, UInt64.ofNat smallContainer.length,
    Sha256.hexDigest smallContainer⟩

/-- The items of a folder in which the small container is stored under a key. -/
def smallFiles (key : Key) : List (String × Node) :=
  [(dataName key, .file smallContainer), (sidecarName key, .file (Sidecar.render
    ⟨key, ⟨0, 0⟩, UInt64.ofNat smallContainer.length, Sha256.hexDigest smallContainer⟩))]

/-- An ingest may fail at a folder in the place of the sidecar's draft, when the earlier sidecar is gone
and the data is replaced. -/
theorem one_answer_after_ingest_failed_half_way :
    let key : Key := ⟨"web", "1"⟩
    let store : Store := { bareStore with cache := [(key, ⟨0, smallArtifact key, .crossLine⟩)] }
    let tree : Tree := ⟨#[⟨0, [("data", .folder 1)]⟩,
      ⟨0, (sidecarName key ++ draftSuffix, .folder 2) :: smallFiles key⟩, ⟨1, []⟩], .root⟩
    let ingest := store.ingestAt "web" "1" smallContainer ⟨60, 0⟩
    let after := (ingest.run tree).1.2
    let changed := (ingest.run tree).2
    ingest.run tree = ((.error (.storage
        (.io (bareDisk.path (sidecarName key ++ draftSuffix)) .refused)), after), changed) ∧
      (after.artifact? "web" "1" changed = bareDisk.artifact? key tree ∨
        after.artifact? "web" "1" changed = none) ∧
      ∀ mode ledger opened reopened,
        (openAt bareDisk.root mode ledger).run changed = (.ok opened, reopened) →
          opened.artifact? "web" "1" reopened = after.artifact? "web" "1" changed := by
  intro key store tree ingest after changed
  have hrun : ingest.run tree = ((.error (.storage
      (.io (bareDisk.path (sidecarName key ++ draftSuffix)) .refused)), after), changed) := by
    decide +kernel
  obtain ⟨key', hmake, -, -, hanswer, hopen⟩ := one_answer_after_failed_ingest hrun
  obtain rfl : key = key' := Except.ok.inj hmake
  exact ⟨hrun, hanswer, hopen (Or.inl ⟨_, rfl⟩)⟩

/-- A store and one that is opened anew may answer differently after a failed ingest: when data is
refused while a copy is loaded whose files are gone, and when the data directory is missing at a path that
leads back through a folder that opening makes. -/
theorem answers_differ_after_failed_ingest :
    let key : Key := ⟨"web", "1"⟩
    let loaded : Store := { bareStore with cache := [(key, ⟨0, smallArtifact key, .crossLine⟩)] }
    let refused := (loaded.ingestAt "web" "1" [] ⟨0, 0⟩).run bareTree
    let opened := (openAt bareDisk.root .crossLine {}).run refused.2
    let away : Path := ["sub", "..", "data"]
    let tree : Tree := ⟨#[⟨0, [("data", .folder 1)]⟩, ⟨0, smallFiles key⟩], .root⟩
    let failed := (Store.ingestAt ⟨⟨away⟩, .crossLine, [], {}⟩ "web" "1" smallContainer ⟨0, 0⟩).run
      tree
    let made := (openAt away .crossLine {}).run failed.2
    (refused.1.1 = .error (.refused (.malformed .truncated)) ∧
        refused.1.2.artifact? "web" "1" refused.2 = some (smallArtifact key) ∧
        opened.1.map (fun store => store.artifact? "web" "1" opened.2) = .ok none) ∧
      failed.1.1 = .error (.storage (.io (away.child (dataName key ++ draftSuffix)) .missing)) ∧
      failed.1.2.artifact? "web" "1" failed.2 = none ∧
      made.1.map (fun store => store.artifact? "web" "1" made.2) = .ok (some (smallArtifact key)) := by
  decide +kernel

end Store

end OriginMap
