import OriginMap.Proofs.Filing

/-!
# A store answers like an archive

A store agrees with an archive when its data directory keeps the archive and every artifact in its cache
is that of the archive's record. Each call on a store that agrees with an archive is answered as the
archive answers it and leaves a store that agrees with the archive after the call. Whatever calls are
made, the store therefore cannot be told from the archive. A sweep is a row of evictions of keys that the
listed sidecars name, and the statistics are those of the listed sidecars, in any data directory.
-/

namespace OriginMap

open Files Disk

namespace Store

/-! ## Opening, evictions and statistics -/

/-- A store that can be opened has nothing loaded. -/
theorem run_openAt_eq {root : Path} {tree made : Tree}
    (hopens : (Script.makeFolders root).run tree = (.ok (), made)) (mode : Accumulation)
    (ledger : Ledger) :
    (openAt root mode ledger).run tree = (.ok ⟨⟨root⟩, mode, [], ledger⟩, made) := by
  rw [openAt, Script.run_bind, makeReady, Script.run_bind, hopens]
  rfl

/-- A key is evicted, and then the others are. -/
theorem run_evictAll_cons (store : Store) (cutoff : Time.Instant) (key : Key) (keys : List Key)
    (tree : Tree) : (store.evictAll cutoff (key :: keys)).run tree =
      let first := (store.evictIfExpired cutoff key).run tree
      let rest := (first.1.2.evictAll cutoff keys).run first.2
      ((if first.1.1 then rest.1.1 + 1 else rest.1.1, rest.1.2), rest.2) := by
  rw [evictAll, Script.run_bind]
  simp only
  rw [Script.run_bind]
  rfl

/-- The keys that a sweep takes from the listed sidecars. -/
def listedKeys (disk : Disk) (cutoff : Time.Instant) (tree : Tree) : List Key :=
  match (disk.list.run tree).1 with
  | .error _ => []
  | .ok sidecars => (sidecars.filter (·.storedAt.before cutoff)).map Sidecar.key

/-- They are the keys that those sidecars name which were stored before the cutoff. -/
theorem mem_listedKeys {disk : Disk} {cutoff : Time.Instant} {tree : Tree} {key : Key} :
    key ∈ listedKeys disk cutoff tree ↔ ∃ sidecars, (disk.list.run tree).1 = .ok sidecars ∧
      ∃ sidecar ∈ sidecars, sidecar.storedAt.before cutoff = true ∧ sidecar.key = key := by
  rw [listedKeys]
  cases (disk.list.run tree).1 with
  | error e => simp
  | ok sidecars => simp [and_assoc]

/-- A sweep evicts the keys that it takes from the listed sidecars. -/
theorem run_sweepExpired {now cutoff : Time.Instant} {age : Time.Span}
    (hcutoff : now.minus? age = some cutoff) (store : Store) (tree : Tree) :
    (store.sweepExpired now age).run tree =
      (store.evictAll cutoff (listedKeys store.disk cutoff tree)).run tree := by
  have hsame : (store.disk.list.run tree).2 = tree := by rw [run_list]
  rw [sweepExpired, hcutoff, Option.elim_some, Script.run_bind, hsame, listedKeys]
  cases (store.disk.list.run tree).1 with
  | error e => rfl
  | ok sidecars => rfl

/-- Statistics are those of the listed sidecars, and change nothing. -/
theorem run_stats (store : Store) (tree : Tree) :
    store.stats.run tree =
      (match (store.disk.list.run tree).1 with
        | .error _ => Stats.ofArtifacts []
        | .ok sidecars => Stats.ofArtifacts (sidecars.map fun sidecar =>
            ⟨sidecar.key, sidecar.sizeBytes, sidecar.storedAt⟩),
        tree) := by
  have hsame : (store.disk.list.run tree).2 = tree := by rw [run_list]
  rw [stats, Script.run_bind, hsame]
  cases (store.disk.list.run tree).1 <;> rfl

/-! ## The cache -/

/-- A dropped key has no loaded copy; the others have the copies they had. -/
@[simp] theorem cached?_forget (store : Store) (gone key : Key) :
    (store.forget gone).cached? key = if key = gone then none else store.cached? key :=
  Folder.lookup_filter_ne store.cache gone key

/-- A key has the copy that was made last; the others have the copies they had. -/
theorem cached?_remember (store : Store) (added key : Key) (artifact : Artifact) :
    (store.remember added artifact).2.cached? key =
      if key = added then some (store.remember added artifact).1 else store.cached? key := by
  show ((added, (store.remember added artifact).1) :: (store.forget added).cache).lookup key = _
  have hrest := store.cached?_forget added key
  rw [List.lookup_cons]
  by_cases hkey : key = added
  · simp [hkey]
  · rw [if_neg hkey] at hrest ⊢
    rw [beq_eq_false_iff_ne.mpr hkey]
    exact hrest

/-- The data directory of a store keeps an archive, and what the store has loaded is of the archive. -/
structure Agrees (keys : Set Key) (disk : Disk) (store : Store) (a : Archive) (tree : Tree) :
    Prop where
  /-- The store works on the data directory. -/
  sameDisk : store.disk = disk
  /-- The data directory keeps the archive. -/
  kept : a.KeptOn keys disk tree
  /-- Every loaded artifact is that of the record of its key. -/
  cached : ∀ key snapshot, store.cached? key = some snapshot →
    (a.find? key).map Record.artifact = some snapshot.artifact

variable {keys : Set Key} {disk : Disk} {store : Store} {a : Archive} {tree : Tree} {key : Key}

/-- Nothing is loaded of a key without a record. -/
theorem Agrees.cached?_eq_none (h : store.Agrees keys disk a tree) (hfind : a.find? key = none) :
    store.cached? key = none := by
  cases hcached : store.cached? key with
  | none => rfl
  | some snapshot =>
    have hartifact := h.cached key snapshot hcached
    rw [hfind] at hartifact
    cases hartifact

/-- Once the record of a key is loaded, the store still agrees with the archive. -/
theorem Agrees.remember {r : Record} {after : Tree} (hstore : store.disk = disk)
    (hkept : a.KeptOn keys disk after) (hfind : a.find? key = some r)
    (hother : ∀ other snapshot, other ≠ key → store.cached? other = some snapshot →
      (a.find? other).map Record.artifact = some snapshot.artifact) :
    (store.remember key r.artifact).2.Agrees keys disk a after := by
  refine ⟨hstore, hkept, fun other snapshot hcached => ?_⟩
  rw [cached?_remember] at hcached
  by_cases hsame : other = key
  · rw [if_pos hsame] at hcached
    rw [hsame, hfind, ← Option.some.inj hcached]
    rfl
  · rw [if_neg hsame] at hcached
    exact hother other snapshot hsame hcached

/-- A store without a key agrees with the archive without it. -/
theorem Agrees.forget {after : Tree} (h : store.Agrees keys disk a tree)
    (hkept : (a.erase key).KeptOn keys disk after) :
    (store.forget key).Agrees keys disk (a.erase key) after := by
  refine ⟨h.sameDisk, hkept, fun other snapshot hcached => ?_⟩
  rw [cached?_forget] at hcached
  split_ifs at hcached with hsame
  rw [Archive.find?_erase, if_neg hsame]
  exact h.cached other snapshot hcached

/-! ## Single calls -/

/-- A store is opened on a data directory that keeps an archive once it can be opened. -/
theorem run_openAt {made : Tree} (hopens : (Script.makeFolders disk.root).run tree = (.ok (), made))
    (hkept : a.KeptOn keys disk made) (mode : Accumulation) (ledger : Ledger) :
    ∃ opened, (openAt disk.root mode ledger).run tree = (.ok opened, made) ∧
      opened.Agrees keys disk a made := by
  refine ⟨_, run_openAt_eq hopens mode ledger, rfl, hkept, fun key snapshot hcached => ?_⟩
  cases hcached

section Calls

variable (hkeys : Set.InjOn Key.stem keys) (hroom : ∀ key ∈ keys, disk.HasRoom key)

include hkeys hroom

/-- An artifact is asked for. -/
theorem Agrees.run_get (h : store.Agrees keys disk a tree) (application version : String)
    (hkey : ∀ key, Key.make application version = .ok key → key ∈ keys) :
    ∃ found after, (store.get application version).run tree = ((found, after), tree) ∧
      found.map Snapshot.artifact = (a.lookUp application version).map Record.artifact ∧
      after.Agrees keys disk a tree := by
  unfold Store.get Archive.lookUp
  cases hmake : Key.make application version with
  | error fault => exact ⟨none, store, rfl, rfl, h⟩
  | ok key =>
    simp only
    cases hcached : store.cached? key with
    | some snapshot =>
      exact ⟨some snapshot, store, rfl, (h.cached key snapshot hcached).symm, h⟩
    | none =>
      have hmem := hkey key hmake
      have hread := h.kept.run_read hkeys (hroom key hmem) hmem
      simp only [Store.load]
      rw [Script.run_bind, h.sameDisk, hread]
      cases hfind : a.find? key with
      | none => exact ⟨none, store, rfl, rfl, h⟩
      | some r =>
        obtain ⟨hr, hrkey⟩ := Archive.find?_eq_some.mp hfind
        have haccepted : Container.parse key r.data r.sidecar.storedAt = .ok r.artifact := by
          rw [← hrkey]
          exact r.accepted
        simp only [Option.map_some, haccepted]
        exact ⟨_, _, rfl, rfl, .remember h.sameDisk h.kept hfind fun other snapshot _ =>
          h.cached other snapshot⟩

/-- An artifact is taken in. -/
theorem Agrees.run_ingestAt (h : store.Agrees keys disk a tree) (application version : String)
    (data : Bytes) {storedAt : Time.Instant}
    (hkey : ∀ key, Key.make application version = .ok key → key ∈ keys)
    (hreadable : Time.Timestamp.read? storedAt.timestamp = some storedAt) :
    ∃ after changed, (store.ingestAt application version data storedAt).run tree =
        (((a.ingest application version data storedAt).1, after), changed) ∧
      after.Agrees keys disk (a.ingest application version data storedAt).2 changed := by
  unfold Store.ingestAt
  cases hmake : Key.make application version with
  | error fault =>
    have hingest : a.ingest application version data storedAt = (.error (.invalidKey fault), a) := by
      rw [Archive.ingest, hmake]
    rw [hingest]
    exact ⟨store, tree, rfl, h⟩
  | ok key =>
    simp only
    cases hparse : Container.parse key data storedAt with
    | error refusal =>
      rw [Archive.ingest_eq_refused hmake hparse]
      exact ⟨store, tree, rfl, h⟩
    | ok artifact =>
      let r : Record := ⟨key, data, storedAt, artifact, hparse⟩
      have hsidecar : (⟨key, storedAt, artifact.sizeBytes, artifact.sha256⟩ : Sidecar) =
          r.sidecar := by
        rw [(Container.of_parse hparse).1, (Container.of_parse hparse).2]
        rfl
      have hmem := hkey key hmake
      obtain ⟨changed, hrun, hkept⟩ :=
        h.kept.run_write (r := r) hkeys (hroom key hmem) hmem hreadable
      rw [Archive.ingest_eq_put hmake hparse]
      simp only [hsidecar]
      rw [Script.run_bind, h.sameDisk, hrun]
      refine ⟨_, changed, rfl, ?_⟩
      have hfind : (a.put r).find? key = some r := by
        rw [Archive.find?_put, if_pos rfl]
      refine .remember h.sameDisk hkept hfind fun other snapshot hne hcached => ?_
      rw [Archive.find?_put, if_neg hne]
      exact h.cached other snapshot hcached

/-- An artifact is removed. -/
theorem Agrees.run_remove (h : store.Agrees keys disk a tree) (application version : String)
    (hkey : ∀ key, Key.make application version = .ok key → key ∈ keys) :
    ∃ after changed, (store.remove application version).run tree =
        ((.ok (a.remove application version).1, after), changed) ∧
      after.Agrees keys disk (a.remove application version).2 changed := by
  unfold Store.remove Archive.remove
  cases hmake : Key.make application version with
  | error fault => exact ⟨store, tree, rfl, h⟩
  | ok key =>
    have hmem := hkey key hmake
    obtain ⟨changed, hrun, hkept⟩ := h.kept.run_delete hkeys (hroom key hmem) hmem
    have hfound : ((a.find? key).isSome || (store.cached? key).isSome) = (a.find? key).isSome := by
      cases hfind : a.find? key with
      | none => rw [h.cached?_eq_none hfind]; rfl
      | some r => rfl
    simp only
    rw [Script.run_bind, h.sameDisk, hrun]
    simp only [hfound]
    exact ⟨_, changed, rfl, h.forget hkept⟩

/-- Old artifacts of different keys are removed one after another. -/
theorem Agrees.run_evictAll (h : store.Agrees keys disk a tree) (cutoff : Time.Instant)
    {expired : List Key} (hdistinct : expired.Nodup)
    (hexpired : ∀ key ∈ expired, ∃ r, a.find? key = some r ∧ r.storedAt.before cutoff = true) :
    ∃ after changed,
      (store.evictAll cutoff expired).run tree = ((expired.length, after), changed) ∧
      after.Agrees keys disk (a.keep fun r => r.key ∉ expired) changed := by
  -- Each removal takes one key out of the archive, and leaves the other old records in it.
  induction expired generalizing store a tree with
  | nil =>
    rw [Archive.keep_eq_self fun r _ => by simp]
    exact ⟨store, tree, rfl, h⟩
  | cons key expired ih =>
    obtain ⟨hnotMem, hrest⟩ := List.nodup_cons.mp hdistinct
    obtain ⟨r, hfind, hbefore⟩ := hexpired key List.mem_cons_self
    obtain ⟨hr, hrkey⟩ := Archive.find?_eq_some.mp hfind
    have hmem : key ∈ keys := by
      rw [← hrkey]
      exact h.kept.known r hr
    have hread := h.kept.run_readSidecar hkeys (hroom key hmem) hmem
    rw [hfind] at hread
    obtain ⟨middle, hdelete, hkept⟩ := h.kept.run_delete hkeys (hroom key hmem) hmem
    have hevict : (store.evictIfExpired cutoff key).run tree = ((true, store.forget key), middle) := by
      have hbefore' : r.sidecar.storedAt.before cutoff = true := hbefore
      rw [evictIfExpired, Script.run_bind, h.sameDisk, hread]
      simp only [Option.map_some, hbefore', if_true]
      rw [Script.run_bind, hdelete]
      rfl
    obtain ⟨after, changed, hrun, hagrees⟩ := ih (h.forget hkept) hrest fun other hother => by
      obtain ⟨r', hfind', hbefore'⟩ := hexpired other (List.mem_cons_of_mem key hother)
      have hne : other ≠ key := fun hne => hnotMem (hne ▸ hother)
      exact ⟨r', by rw [Archive.find?_erase, if_neg hne, hfind'], hbefore'⟩
    refine ⟨after, changed, ?_, ?_⟩
    · rw [run_evictAll_cons, hevict]
      simp only [hrun]
      rfl
    · rw [Archive.erase, Archive.keep_keep] at hagrees
      have hsame : (a.keep fun r => decide (r.key ≠ key) && decide (r.key ∉ expired)) =
          a.keep fun r => r.key ∉ key :: expired :=
        Archive.keep_congr fun r _ => by simp
      rwa [← hsame]

/-- Artifacts from before a cutoff are removed. -/
theorem Agrees.run_sweepExpired (h : store.Agrees keys disk a tree) {now cutoff : Time.Instant}
    {age : Time.Span} (hcutoff : now.minus? age = some cutoff) :
    ∃ after changed,
      (store.sweepExpired now age).run tree = (((a.sweep cutoff).1, after), changed) ∧
      after.Agrees keys disk (a.sweep cutoff).2 changed := by
  obtain ⟨sidecars, hlist, hperm⟩ := h.kept.run_list hkeys hroom
  let expired := (sidecars.filter fun sidecar => sidecar.storedAt.before cutoff).map Sidecar.key
  have hexpired : expired.Perm
      ((a.records.filter fun r => r.storedAt.before cutoff).map Record.key) := by
    have hfiltered := (hperm.filter fun sidecar => sidecar.storedAt.before cutoff).map Sidecar.key
    rwa [List.filter_map, List.map_map] at hfiltered
  have hmem (key : Key) : key ∈ expired ↔
      ∃ r, a.find? key = some r ∧ r.storedAt.before cutoff = true := by
    rw [hexpired.mem_iff, List.mem_map]
    simp only [List.mem_filter, Archive.find?_eq_some]
    exact exists_congr fun r => and_right_comm
  have hdistinct : expired.Nodup :=
    hexpired.nodup_iff.mpr (a.distinct.sublist (List.filter_sublist.map Record.key))
  obtain ⟨after, changed, hrun, hagrees⟩ :=
    h.run_evictAll hkeys hroom cutoff hdistinct fun key hkey => (hmem key).mp hkey
  have hlength : expired.length = (a.sweep cutoff).1 := by
    rw [hexpired.length_eq, List.length_map, Archive.sweep]
  rw [hlength] at hrun
  refine ⟨after, changed, ?_, ?_⟩
  · rw [← hrun, Store.run_sweepExpired hcutoff, listedKeys, h.sameDisk, hlist]
  · have hsame : (a.keep fun r => r.key ∉ expired) =
        a.keep fun r => !r.storedAt.before cutoff := by
      refine Archive.keep_congr fun r hr => ?_
      have hfind : a.find? r.key = some r := Archive.find?_eq_some.mpr ⟨hr, rfl⟩
      simp [hmem, hfind]
    rwa [hsame] at hagrees

/-- Statistics are asked for. -/
theorem Agrees.run_stats (h : store.Agrees keys disk a tree) :
    store.stats.run tree = (a.stats, tree) := by
  obtain ⟨sidecars, hlist, hperm⟩ := h.kept.run_list hkeys hroom
  let row (sidecar : Sidecar) : ArtifactStat := ⟨sidecar.key, sidecar.sizeBytes, sidecar.storedAt⟩
  have hrows : (sidecars.map row).Perm (a.records.map Record.stat) := by
    have hmapped := hperm.map row
    rwa [List.map_map] at hmapped
  have hdistinct : ((a.records.map Record.stat).map ArtifactStat.key).Nodup := by
    rw [List.map_map]
    exact a.distinct
  rw [Store.run_stats, h.sameDisk, hlist]
  exact congrArg (·, tree) (ofArtifacts_of_perm hrows hdistinct)

/-- Every call is answered as the archive answers it, and the store goes on to agree with it. -/
theorem Agrees.run_perform (h : store.Agrees keys disk a tree) (call : Call)
    (hkey : ∀ key ∈ call.key?, key ∈ keys)
    (hreadable : ∀ t ∈ call.storedAt?, Time.Timestamp.read? t.timestamp = some t) :
    ∃ after changed, (call.perform store).run tree = (((a.answer call).1, after), changed) ∧
      after.Agrees keys disk (a.answer call).2 changed := by
  have hmade (application version : String)
      (hcall : call.key? = (Key.make application version).toOption) (key : Key)
      (hmake : Key.make application version = .ok key) : key ∈ keys := by
    refine hkey key ?_
    rw [hcall, hmake]
    rfl
  cases call with
  | reopen mode =>
    obtain ⟨folder, hroot, -⟩ := h.kept.filed
    obtain ⟨opened, hrun, hopened⟩ :=
      run_openAt (Script.run_makeFolders hroot) h.kept mode store.ledger
    refine ⟨opened, tree, ?_, hopened⟩
    rw [Call.perform, Script.run_bind, h.sameDisk, hrun]
    rfl
  | ingest application version data storedAt =>
    obtain ⟨after, changed, hrun, hafter⟩ := h.run_ingestAt hkeys hroom application version data
      (hmade application version rfl) (hreadable storedAt rfl)
    refine ⟨after, changed, ?_, hafter⟩
    rw [Call.perform, Script.run_bind, hrun]
    rfl
  | get application version =>
    obtain ⟨found, after, hrun, hfound, hafter⟩ :=
      h.run_get hkeys hroom application version (hmade application version rfl)
    refine ⟨after, tree, ?_, hafter⟩
    rw [Call.perform, Script.run_bind, hrun]
    simp only [Script.run_pure, hfound, Archive.answer]
  | sourceContent application version hint =>
    obtain ⟨found, after, hrun, hfound, hafter⟩ :=
      h.run_get hkeys hroom application version (hmade application version rfl)
    have hcontent : (found.bind fun s =>
          (findSource? s.artifact.sources hint).bind s.artifact.sourceContent?) =
        (a.lookUp application version).bind (·.text? hint) := by
      have hbind := congrArg (Option.bind · fun artifact : Artifact =>
        (findSource? artifact.sources hint).bind artifact.sourceContent?) hfound
      simpa only [Option.bind_map, Function.comp_def, Record.text?_eq] using hbind
    refine ⟨after, tree, ?_, hafter⟩
    rw [Call.perform, Script.run_bind, Store.sourceContent, Script.run_bind, hrun]
    simp only [Script.run_pure, hcontent, Archive.answer]
  | remove application version =>
    obtain ⟨after, changed, hrun, hafter⟩ :=
      h.run_remove hkeys hroom application version (hmade application version rfl)
    refine ⟨after, changed, ?_, hafter⟩
    rw [Call.perform, Script.run_bind, hrun]
    rfl
  | sweep now age =>
    cases hcutoff : now.minus? age with
    | none =>
      rw [Archive.answer, hcutoff]
      refine ⟨store, tree, ?_, h⟩
      rw [Call.perform, Script.run_bind, sweepExpired, hcutoff]
      rfl
    | some cutoff =>
      obtain ⟨after, changed, hrun, hafter⟩ := h.run_sweepExpired hkeys hroom hcutoff
      rw [Archive.answer, hcutoff]
      refine ⟨after, changed, ?_, hafter⟩
      rw [Call.perform, Script.run_bind, hrun]
      rfl
  | stats =>
    refine ⟨store, tree, ?_, h⟩
    rw [Call.perform, Script.run_bind, h.run_stats hkeys hroom]
    rfl

/-! ## Many calls -/

/-- Calls one after another are answered as the archive answers them. -/
theorem Agrees.run_answers (h : store.Agrees keys disk a tree) {calls : List Call}
    (hcalls : ∀ call ∈ calls, ∀ key ∈ call.key?, key ∈ keys)
    (hreadable : ∀ call ∈ calls, ∀ t ∈ call.storedAt?, Time.Timestamp.read? t.timestamp = some t) :
    ((store.answers calls).run tree).1 = a.answers calls := by
  induction calls generalizing store a tree with
  | nil => rfl
  | cons call calls ih =>
    obtain ⟨after, changed, hrun, hafter⟩ := h.run_perform hkeys hroom call
      (hcalls call List.mem_cons_self) (hreadable call List.mem_cons_self)
    have hrest := ih hafter (fun other hother => hcalls other (List.mem_cons_of_mem call hother))
      fun other hother => hreadable other (List.mem_cons_of_mem call hother)
    rw [Store.answers, Script.run_bind, hrun]
    simp only
    rw [Script.run_bind]
    simp only [Script.run_pure, hrest, Archive.answers]

end Calls

/-- A store that is opened on a data directory, which opening may make and which is empty then, answers
every sequence of calls, further openings among them, as an archive that starts without records. The keys
that are used have different stems and paths that can be looked up, and the instants at which artifacts are
taken in are read back from their timestamps. -/
theorem session_eq_answers (hkeys : Set.InjOn Key.stem keys)
    (hroom : ∀ key ∈ keys, disk.HasRoom key) {made : Tree} {above : ℕ}
    (hopens : (Script.makeFolders disk.root).run tree = (.ok (), made))
    (hempty : made.folderAt disk.root = .ok ⟨above, []⟩) (mode : Accumulation) {calls : List Call}
    (hcalls : ∀ call ∈ calls, ∀ key ∈ call.key?, key ∈ keys)
    (hreadable : ∀ call ∈ calls, ∀ t ∈ call.storedAt?, Time.Timestamp.read? t.timestamp = some t) :
    ((session disk.root mode calls).run tree).1 = .ok (Archive.empty.answers calls) := by
  obtain ⟨opened, hrun, hagrees⟩ := run_openAt hopens (Archive.keptOn_empty hempty) mode {}
  have hanswers := hagrees.run_answers hkeys hroom hcalls hreadable
  rw [session, Script.run_bind, hrun]
  simp only
  rw [Script.run_bind]
  simp only [Script.run_pure, hanswers]

/-- A container with a captured text is taken in over another in a data directory that has to be made. On a
store that is opened anew the text is that of the second one, until a sweep takes it. -/
theorem session_eq_answers_of_reopened :
    let key : Key := ⟨"shop", "1.0"⟩
    let disk : Disk := ⟨["data"]⟩
    let made : Tree := ⟨#[⟨0, [("data", .folder 1)]⟩, ⟨0, []⟩], .root⟩
    let old := utf8
      "\x7b\"sources\":[\"src/a.ts\"],\"sourcesContent\":[\"let a\"],\"mappings\":\"\"\x7d"
    let new := utf8
      "\x7b\"sources\":[\"src/a.ts\"],\"sourcesContent\":[\"let b\"],\"mappings\":\"\"\x7d"
    let size := UInt64.ofNat new.length
    let calls : List Call := [.ingest "shop" "1.0" old ⟨0, 0⟩, .ingest "shop" "1.0" new ⟨10, 0⟩,
      .reopen .perLine, .sourceContent "shop" "1.0" "dist/a.ts?v=2", .get "shop" "1.0",
      .ingest "shop" "1.0" [] ⟨20, 0⟩, .stats, .sweep ⟨60, 0⟩ ⟨30, 0⟩, .remove "shop" "1.0",
      .get "shop" "1.0"]
    Set.InjOn Key.stem {key} ∧ (∀ key' ∈ ({key} : Set Key), disk.HasRoom key') ∧
      (Script.makeFolders disk.root).run (.ofFiles []) = (.ok (), made) ∧
      made.folderAt disk.root = .ok ⟨0, []⟩ ∧
      (∀ call ∈ calls, ∀ key' ∈ call.key?, key' ∈ ({key} : Set Key)) ∧
      (∀ call ∈ calls, ∀ t ∈ call.storedAt?, Time.Timestamp.read? t.timestamp = some t) ∧
      ((session disk.root .crossLine calls).run (.ofFiles [])).1 = .ok [
        .ingested (.ok ()), .ingested (.ok ()), .reopened (.ok ()), .content (some "let b"),
        .artifact (some {
          key, file := none, sources := ["src/a.ts"], sourcesContent := [some "let b"], names := []
          mappings := "", storedAt := ⟨10, 0⟩, sizeBytes := size, sha256 := Sha256.hexDigest new }),
        .ingested (.error (.refused (.malformed .truncated))),
        .stats (some ⟨1, size, [⟨key, size, ⟨10, 0⟩⟩]⟩), .swept 1, .removed (.ok false),
        .artifact none] := by
  intro key disk made old new size calls
  have hkeys : Set.InjOn Key.stem {key} := Set.injOn_singleton _ _
  have hroom : ∀ key' ∈ ({key} : Set Key), disk.HasRoom key' := fun key' _ =>
    hasRoom_of_size (by decide) (by decide) key'
  have hopens : (Script.makeFolders disk.root).run (.ofFiles []) = (.ok (), made) := rfl
  have hempty : made.folderAt disk.root = .ok ⟨0, []⟩ := rfl
  have hcalls : ∀ call ∈ calls, ∀ key' ∈ call.key?, key' ∈ ({key} : Set Key) := by
    have hall : ∀ call ∈ calls, ∀ key' ∈ call.key?, key' = key := by decide
    exact hall
  have hreadable : ∀ call ∈ calls, ∀ t ∈ call.storedAt?,
      Time.Timestamp.read? t.timestamp = some t := by
    have hall : ∀ call ∈ calls, ∀ t ∈ call.storedAt?, t.kept = true ∧ t.nanos = 0 := by decide
    intro call hcall t ht
    obtain ⟨hkept, hnanos⟩ := hall call hcall t ht
    exact Time.Instant.read?_timestamp_eq hkept (by rw [hnanos]; decide)
  have hanswers := session_eq_answers hkeys hroom hopens hempty .crossLine hcalls hreadable
  refine ⟨hkeys, hroom, hopens, hempty, hcalls, hreadable, hanswers.trans (congrArg Except.ok ?_)⟩
  decide +kernel

/-- A store that is opened on a data directory without room for a key takes no artifact in under it. -/
theorem session_ingest_refused {folder : Folder} (hroot : tree.folderAt disk.root = .ok folder)
    (hfits : (disk.sidecarPath key).fits = false) {application version : String} {data : Bytes}
    {storedAt : Time.Instant} {artifact : Artifact} (hmake : Key.make application version = .ok key)
    (hparse : Container.parse key data storedAt = .ok artifact) (mode : Accumulation) :
    ((session disk.root mode [.ingest application version data storedAt]).run tree).1 =
      .ok [.ingested (.error (.storage (.io (disk.sidecarPath key) .refused)))] := by
  have hopen := run_openAt_eq (Script.run_makeFolders hroot) mode {}
  have hcall : ((Call.ingest application version data storedAt).perform ⟨disk, mode, [], {}⟩).run tree =
      ((.ingested (.error (.storage (.io (disk.sidecarPath key) .refused))), ⟨disk, mode, [], {}⟩),
        tree) := by
    simp only [Call.perform, ingestAt, hmake, hparse]
    rw [Script.run_bind, Script.run_bind, run_write_refused hfits]
    rfl
  rw [session, Script.run_bind, hopen]
  simp only
  rw [answers, Script.run_bind, Script.run_bind, hcall]
  rfl

/-- In an empty data directory whose path is about as long as paths can be an artifact is refused, though an
archive takes it in. Below the empty path one is taken in and does not show in the statistics. -/
theorem session_ne_answers_without_room :
    let key : Key := ⟨"shop", "1.0"⟩
    let disk : Disk := ⟨dotted 2047⟩
    let data := utf8 "\x7b\"sources\":[],\"mappings\":\"\"\x7d"
    let ingest : Call := .ingest "shop" "1.0" data ⟨0, 0⟩
    Archive.empty.answers [ingest, .stats] =
        [.ingested (.ok ()), .stats (some ⟨1, 28, [⟨key, 28, ⟨0, 0⟩⟩]⟩)] ∧
      (Tree.ofFiles []).folderAt disk.root = .ok ⟨0, []⟩ ∧
      ((session disk.root .crossLine [ingest]).run (.ofFiles [])).1 =
        .ok [.ingested (.error (.storage (.io (disk.sidecarPath key) .refused)))] ∧
      ((session .empty .crossLine [ingest, .stats]).run (.ofFiles [])).1 =
        .ok [.ingested (.ok ()), .stats (some ⟨0, 0, []⟩)] := by
  intro key disk data ingest
  have hroot : (Tree.ofFiles []).folderAt disk.root = .ok ⟨0, []⟩ :=
    folderAt_dotted (by decide) (by decide)
  have hfits : (disk.sidecarPath key).fits = false := fits_sidecarPath_dotted (by decide) key
  have hmake : Key.make "shop" "1.0" = .ok key := by decide
  have hanswers : Archive.empty.answers [ingest, .stats] =
      [.ingested (.ok ()), .stats (some ⟨1, 28, [⟨key, 28, ⟨0, 0⟩⟩]⟩)] := by decide +kernel
  have haccepted : (Container.parse key data ⟨0, 0⟩).isOk = true := by decide +kernel
  cases hparse : Container.parse key data ⟨0, 0⟩ with
  | error refusal =>
    rw [hparse] at haccepted
    cases haccepted
  | ok artifact =>
    exact ⟨hanswers, hroot, session_ingest_refused hroot hfits hmake hparse .crossLine,
      by decide +kernel⟩

end Store

end OriginMap
