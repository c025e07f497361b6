import OriginMap.Proofs.Container
import OriginMap.Proofs.Disk.Room
import OriginMap.Proofs.Store
import OriginMap.Proofs.Tracing

/-!
# From a container to an answer

Once a container was taken in, positions are traced back by its entries: on the store that took it in, on
one that is opened later, and however often either is asked. The invariant is that the artifact can be
loaded from the data directory, and that it is in the cache if anything of its key is.
-/

namespace OriginMap

open Files Disk

namespace Store

/-! ## Questions -/

/-- A call that changes no file: the store is asked for something or opened anew. -/
inductive Question where
  /-- The store is opened anew, in the same mode and with nothing loaded. -/
  | reopen
  /-- An artifact is asked for. -/
  | get (application version : String)
  /-- The text of a source is asked for. -/
  | sourceContent (application version hint : String)
  /-- A position is traced back. -/
  | resolve (application version file : String) (line column : UInt32)
  /-- A position is traced back, with the lines around it. -/
  | resolveWithContext (application version file : String) (line column : UInt32) (count : UInt64)
  /-- Statistics are asked for. -/
  | stats
  deriving DecidableEq, Repr

/-- The store after a question. -/
def ask (store : Store) : Question → Script Store
  | .reopen => do
    match ← openAt store.disk.root store.accumulation store.ledger with
    | .ok opened => return opened
    | .error _ => return store
  | .get application version => return (← store.get application version).2
  | .sourceContent application version hint =>
    return (← store.sourceContent application version hint).2
  | .resolve application version file line column =>
    return (← store.resolve application version file line column).2
  | .resolveWithContext application version file line column count =>
    return (← store.resolveWithContext application version file line column count).2
  | .stats => do
    let _ ← store.stats
    return store

/-- The store after some questions, one after another. -/
def askAll (store : Store) : List Question → Script Store
  | [] => return store
  | question :: questions => do (← store.ask question).askAll questions

/-! ## Readiness -/

/-- A store from which the artifact of a key can be had, with what it consists of. -/
structure Ready (disk : Disk) (key : Key) (mode : Accumulation) (sources names : List String)
    (mappings : String) (tree : Tree) (store : Store) : Prop where
  /-- The store works on the data directory. -/
  sameDisk : store.disk = disk
  /-- The store reads mapping texts in the mode. -/
  sameMode : store.accumulation = mode
  /-- The data directory can be opened. -/
  opens : (Script.makeFolders disk.root).run tree = (.ok (), tree)
  /-- The artifact can be loaded. -/
  loads : ∃ sidecar data artifact, (disk.read key).run tree = (.ok (some (sidecar, data)), tree) ∧
    Container.parse key data sidecar.storedAt = .ok artifact ∧ artifact.sources = sources ∧
      artifact.names = names ∧ artifact.mappings = mappings
  /-- If anything of the key is loaded, it is the artifact. -/
  cached : ∀ snapshot, store.cached? key = some snapshot →
    snapshot.Holds mode sources names mappings

section Ready

variable {disk : Disk} {key : Key} {mode : Accumulation} {sources names : List String}
  {mappings : String} {tree : Tree} {store : Store}

/-- A store that has loaded something stays ready, if this is the artifact wherever it is of its key. -/
theorem Ready.remember {added : Key} {artifact : Artifact}
    (h : store.Ready disk key mode sources names mappings tree)
    (hartifact : added = key → artifact.sources = sources ∧ artifact.names = names ∧
      artifact.mappings = mappings) :
    (store.remember added artifact).2.Ready disk key mode sources names mappings tree := by
  refine ⟨h.sameDisk, h.sameMode, h.opens, h.loads, fun snapshot hcached => ?_⟩
  rw [cached?_remember] at hcached
  split_ifs at hcached with hkey
  · obtain ⟨hsources, hnames, hmappings⟩ := hartifact hkey.symm
    rw [← Option.some.inj hcached]
    exact ⟨h.sameMode, hsources, hnames, hmappings⟩
  · exact h.cached snapshot hcached

/-- A store stays ready when it is asked for an artifact, and has that of the key. -/
theorem Ready.run_get (h : store.Ready disk key mode sources names mappings tree)
    (application version : String) :
    ∃ found after, (store.get application version).run tree = ((found, after), tree) ∧
      after.Ready disk key mode sources names mappings tree ∧
      (Key.make application version = .ok key →
        ∃ s, found = some s ∧ s.Holds mode sources names mappings) := by
  obtain ⟨sidecar, data, artifact, hread, hparse, hcontents⟩ := h.loads
  unfold Store.get
  cases hmake : Key.make application version with
  | error fault => exact ⟨none, store, rfl, h, fun hkey => by cases hkey⟩
  | ok asked =>
    simp only [Except.ok.injEq]
    by_cases hasked : asked = key
    · subst hasked
      cases hcached : store.cached? asked with
      | some snapshot => exact ⟨_, store, rfl, h, fun _ => ⟨snapshot, rfl, h.cached _ hcached⟩⟩
      | none =>
        simp only [load]
        rw [Script.run_bind, h.sameDisk, hread]
        simp only [hparse]
        refine ⟨_, _, rfl, h.remember fun _ => hcontents, fun _ => ⟨_, rfl, ?_⟩⟩
        exact ⟨h.sameMode, hcontents.1, hcontents.2.1, hcontents.2.2⟩
    · have hother {p : Prop} (hkey : asked = key) : p := absurd hkey hasked
      cases hcached : store.cached? asked with
      | some snapshot => exact ⟨_, store, rfl, h, hother⟩
      | none =>
        have hsame := run_read_snd disk asked tree
        simp only [load]
        rw [Script.run_bind, h.sameDisk, hsame]
        rcases ((disk.read asked).run tree).1 with e | _ | ⟨found, stored⟩
        · exact ⟨none, store, rfl, h, hother⟩
        · exact ⟨none, store, rfl, h, hother⟩
        · simp only
          cases Container.parse asked stored found.storedAt with
          | error refusal => exact ⟨none, store, rfl, h, hother⟩
          | ok loaded => exact ⟨_, _, rfl, h.remember hother, hother⟩

/-- A store stays ready when a position is traced back. -/
theorem Ready.run_locate (h : store.Ready disk key mode sources names mappings tree)
    (application version file : String) (line column : UInt32) :
    ∃ answer after, (store.locate application version file line column).run tree =
        ((answer, after), tree) ∧ after.Ready disk key mode sources names mappings tree ∧
      (Key.make application version = .ok key → ∃ s : Snapshot, s.Holds mode sources names mappings ∧
        answer = (s.locate file line column).map fun hit => (s, hit)) := by
  obtain ⟨found, after, hrun, hready, hfound⟩ := h.run_get application version
  rw [locate, Script.run_bind, hrun]
  cases found with
  | none =>
    refine ⟨_, after, rfl, hready, fun hmake => ?_⟩
    obtain ⟨s, hs, -⟩ := hfound hmake
    cases hs
  | some s =>
    refine ⟨_, after.noteIndex s, rfl, ⟨hready.sameDisk, hready.sameMode, hready.opens,
      hready.loads, hready.cached⟩, fun hmake => ⟨s, ?_, rfl⟩⟩
    obtain ⟨s', hs, hholds⟩ := hfound hmake
    rwa [Option.some.inj hs]

/-- A store stays ready whatever it is asked. -/
theorem Ready.run_ask (h : store.Ready disk key mode sources names mappings tree)
    (question : Question) : ∃ after, (store.ask question).run tree = (after, tree) ∧
      after.Ready disk key mode sources names mappings tree := by
  cases question with
  | reopen =>
    refine ⟨{ store with cache := [] }, ?_, h.sameDisk, h.sameMode, h.opens, h.loads, ?_⟩
    · have hopen := run_openAt_eq h.opens store.accumulation store.ledger
      rw [ask, Script.run_bind, h.sameDisk, hopen]
      rw [← h.sameDisk]
      rfl
    · intro snapshot hcached
      cases hcached
  | get application version =>
    obtain ⟨found, after, hrun, hready, -⟩ := h.run_get application version
    refine ⟨after, ?_, hready⟩
    rw [ask, Script.run_bind, hrun]
    rfl
  | sourceContent application version hint =>
    obtain ⟨found, after, hrun, hready, -⟩ := h.run_get application version
    refine ⟨after, ?_, hready⟩
    rw [ask, Script.run_bind, sourceContent, Script.run_bind, hrun]
    rfl
  | resolve application version file line column =>
    obtain ⟨answer, after, hrun, hready, -⟩ := h.run_locate application version file line column
    refine ⟨after, ?_, hready⟩
    rw [ask, Script.run_bind, resolve, Script.run_bind, hrun]
    rfl
  | resolveWithContext application version file line column count =>
    obtain ⟨answer, after, hrun, hready, -⟩ := h.run_locate application version file line column
    refine ⟨after, ?_, hready⟩
    rw [ask, Script.run_bind, resolveWithContext, Script.run_bind, hrun]
    rfl
  | stats =>
    refine ⟨store, ?_, h⟩
    rw [ask, Script.run_bind, Store.stats, Script.run_bind, run_list]
    cases tree.list store.disk.root <;> rfl

/-- A store stays ready however often it is asked. -/
theorem Ready.run_askAll (h : store.Ready disk key mode sources names mappings tree)
    (questions : List Question) : ∃ after, (store.askAll questions).run tree = (after, tree) ∧
      after.Ready disk key mode sources names mappings tree := by
  induction questions generalizing store with
  | nil => exact ⟨store, rfl, h⟩
  | cons question questions ih =>
    obtain ⟨middle, hrun, hmiddle⟩ := h.run_ask question
    obtain ⟨after, hrest, hafter⟩ := ih hmiddle
    refine ⟨after, ?_, hafter⟩
    rw [askAll, Script.run_bind, hrun]
    exact hrest

/-- A store that is ready gives the answers of the entries of which it has the standard text. -/
theorem Ready.traces_resolve {entries : List Entry}
    (h : store.Ready disk key mode sources names
      (String.ofList (Mappings.standardText mode entries)) tree)
    (hascending : Ascending entries) (hpointing : Pointing sources names entries)
    {application version : String} (hmake : Key.make application version = .ok key) (file : String)
    (line column : UInt32) : Traces sources names entries file line column
      ((store.resolve application version file line column).run tree).1.1 := by
  obtain ⟨answer, after, hrun, -, hanswer⟩ := h.run_locate application version file line column
  obtain ⟨s, hholds, rfl⟩ := hanswer hmake
  have htraces := traces_locate hholds hascending hpointing file line column
  rw [resolve, Script.run_bind, hrun]
  simp only [Script.run_pure]
  cases hlocate : s.locate file line column with
  | error miss => rwa [hlocate] at htraces
  | ok hit => rwa [hlocate] at htraces

end Ready

/-! ## Taking in -/

/-- What taking an artifact in comes to when it succeeds. -/
theorem of_run_ingestAt {store after : Store} {application version : String} {data : Bytes}
    {storedAt : Time.Instant} {tree changed : Tree}
    (h : (store.ingestAt application version data storedAt).run tree = ((.ok (), after), changed)) :
    ∃ key artifact, Key.make application version = .ok key ∧
      Container.parse key data storedAt = .ok artifact ∧
      (store.disk.write key data ⟨key, storedAt, artifact.sizeBytes, artifact.sha256⟩).run tree =
        (.ok (), changed) ∧ after = (store.remember key artifact).2 := by
  unfold ingestAt at h
  cases hmake : Key.make application version with
  | error fault => simp [hmake] at h
  | ok key =>
    simp only [hmake] at h
    cases hparse : Container.parse key data storedAt with
    | error refusal => simp [hparse] at h
    | ok artifact =>
      simp only [hparse] at h
      rw [Script.run_bind] at h
      rcases hwrite : (store.disk.write key data
        ⟨key, storedAt, artifact.sizeBytes, artifact.sha256⟩).run tree with ⟨cause | _, written⟩
      · simp [hwrite] at h
      · simp only [hwrite, Script.run_pure, Prod.mk.injEq, true_and] at h
        rw [h.2] at hwrite
        exact ⟨key, artifact, rfl, hparse, hwrite, h.1.symm⟩

/-- A store is ready for the key of a container that it took in. -/
theorem ready_of_run_ingestAt {store after : Store} {application version : String} {data : Bytes}
    {storedAt : Time.Instant} {tree changed : Tree} {members : List Container.Member}
    {sources names : List String} {mappings : String}
    (hmembers : Container.Complete members sources names mappings)
    (hdata : Json.Documents (Container.object members) data) (hkept : storedAt.kept = true)
    (hnanos : storedAt.nanos < 2 * Time.secondNanos)
    (h : (store.ingestAt application version data storedAt).run tree = ((.ok (), after), changed)) :
    ∃ key, Key.make application version = .ok key ∧
      after.Ready store.disk key store.accumulation sources names mappings changed := by
  obtain ⟨key, artifact, hmake, hparse, hwrite, rfl⟩ := of_run_ingestAt h
  obtain ⟨hroom, number, folder, hholds, hsidecar, hstored⟩ := holds_of_run_write hwrite
  obtain ⟨hsize, hdigest⟩ := Container.of_parse hparse
  obtain ⟨held, hheld, hcontents⟩ := Container.parse_of_complete hmembers hdata key storedAt
  obtain rfl : artifact = held := Except.ok.inj (hparse.symm.trans hheld)
  have hread := run_read_some hroom hholds hsidecar (Sidecar.read_render_named hkept hnanos) hstored
    hdigest.symm
  obtain ⟨loaded, hloaded, hloadedContents⟩ :=
    Container.parse_of_complete hmembers hdata key storedAt.named
  refine ⟨key, hmake, rfl, rfl, Script.run_makeFolders_of_holds hholds (hroom .sidecar),
    ⟨_, data, loaded, hread, hloaded, hloadedContents⟩, fun snapshot hcached => ?_⟩
  rw [cached?_remember, if_pos rfl] at hcached
  rw [← Option.some.inj hcached]
  exact ⟨rfl, hcontents.1, hcontents.2.1, hcontents.2.2⟩

/-- Once a container of version 3 was taken in that has some sources and names and, for the store's mode,
the standard text of entries in non-decreasing lines that point at those, every position is traced back
as the entries say. This holds on the store that took it in and on one opened later in the same mode,
whatever it was asked before. The instant at which the container was taken in is one that is kept. -/
theorem traces_after_ingest {store after : Store} {application version : String} {data : Bytes}
    {storedAt : Time.Instant} {tree changed : Tree} {members : List Container.Member}
    {sources names : List String} {entries : List Entry} (hascending : Ascending entries)
    (hpointing : Pointing sources names entries)
    (hmembers : Container.Complete members sources names
      (String.ofList (Mappings.standardText store.accumulation entries)))
    (hdata : Json.Documents (Container.object members) data) (hkept : storedAt.kept = true)
    (hnanos : storedAt.nanos < 2 * Time.secondNanos)
    (hingest : (store.ingestAt application version data storedAt).run tree =
      ((.ok (), after), changed))
    (questions : List Question) (file : String) (line column : UInt32) :
    Traces sources names entries file line column ((after.askAll questions >>= fun later =>
      later.resolve application version file line column).run changed).1.1 := by
  obtain ⟨key, hmake, hready⟩ := ready_of_run_ingestAt hmembers hdata hkept hnanos hingest
  obtain ⟨later, hrun, hlater⟩ := hready.run_askAll questions
  rw [Script.run_bind, hrun]
  exact hlater.traces_resolve hascending hpointing hmake file line column

/-- An empty store takes a complete container in. -/
theorem exists_run_ingestAt (mode : Accumulation) {application version : String} {key : Key}
    {data : Bytes} {storedAt : Time.Instant} {members : List Container.Member}
    {sources names : List String} {mappings : String}
    (hmake : Key.make application version = .ok key)
    (hmembers : Container.Complete members sources names mappings)
    (hdata : Json.Documents (Container.object members) data)
    (hreadable : Time.Timestamp.read? storedAt.timestamp = some storedAt) :
    ∃ after changed, ((⟨bareDisk, mode, [], {}⟩ : Store).ingestAt application version data
      storedAt).run bareTree = ((.ok (), after), changed) := by
  obtain ⟨artifact, hparse, -⟩ := Container.parse_of_complete hmembers hdata key storedAt
  have hagrees : (⟨bareDisk, mode, [], {}⟩ : Store).Agrees {key} bareDisk Archive.empty bareTree :=
    ⟨rfl, Archive.keptOn_empty folderAt_bareTree, fun key snapshot hcached => by cases hcached⟩
  obtain ⟨after, changed, hingest, -⟩ := hagrees.run_ingestAt (Set.injOn_singleton _ _)
    (fun key _ => hasRoom_bareDisk key) application version data
    (fun made hmade => (Except.ok.inj (hmake.symm.trans hmade)).symm) hreadable
  rw [Archive.ingest_eq_put hmake hparse] at hingest
  exact ⟨after, changed, hingest⟩

/-- The members of a container may come in any order, and the store may be opened anew. Of two entries of a
source that are equally near to a position the first one tells the location. -/
theorem traces_after_ingest_of_reopened :
    let sources := ["src/a.ts", "src/b.ts"]
    let entries : List Entry := [⟨0, 10, 0, 2, 3, none⟩, ⟨1, 4, 1, 5, 0, some 0⟩, ⟨1, 0, 1, 6, 0, none⟩]
    let members : List Container.Member :=
      [.mappings (some (String.ofList (Mappings.standardText .crossLine entries))), .names ["render"],
        .file none, .sources (some sources), .version (some Container.supportedVersion)]
    let data := utf8 (Container.object members).render
    let store : Store := ⟨bareDisk, .crossLine, [], {}⟩
    Ascending entries ∧ Pointing sources ["render"] entries ∧
      Container.Complete members sources ["render"]
        (String.ofList (Mappings.standardText store.accumulation entries)) ∧
      Json.Documents (Container.object members) data ∧ (⟨0, 0⟩ : Time.Instant).kept = true ∧
      0 < 2 * Time.secondNanos ∧
      ∃ after changed,
        (store.ingestAt "shop" "1.0" data ⟨0, 0⟩).run bareTree = ((.ok (), after), changed) ∧
        (∀ file line column, Traces sources ["render"] entries file line column
          ((after.askAll [.reopen] >>= fun later =>
            later.resolve "shop" "1.0" file line column).run changed).1.1) ∧
        ((after.askAll [.reopen] >>= fun later =>
          later.resolve "shop" "1.0" "dist/b.ts?x" 1 2).run changed).1.1 =
            .ok ⟨"src/b.ts", 5, 0, some "render"⟩ := by
  intro sources entries members data store
  have hascending : Ascending entries := by
    unfold Ascending
    decide
  have hpointing : Pointing sources ["render"] entries := by
    unfold Pointing
    simp [sources, entries]
  have hmembers : Container.Complete members sources ["render"]
      (String.ofList (Mappings.standardText store.accumulation entries)) := by
    constructor
    · simp [members, Container.Member.key]
    all_goals simp [members, store]
  have hdata := Json.documents_render (Container.object members)
  have hkept : (⟨0, 0⟩ : Time.Instant).kept = true := by decide
  have hnanos : 0 < 2 * Time.secondNanos := by decide
  have hmake : Key.make "shop" "1.0" = .ok ⟨"shop", "1.0"⟩ := by decide
  obtain ⟨after, changed, hingest⟩ := exists_run_ingestAt .crossLine hmake hmembers hdata
    (Time.Instant.read?_timestamp_eq hkept (by decide))
  have htraces := traces_after_ingest hascending hpointing hmembers hdata hkept hnanos hingest [.reopen]
  have hlocated : Traces sources ["render"] entries "dist/b.ts?x" 1 2
      (.ok ⟨"src/b.ts", 5, 0, some "render"⟩) := by
    have hmatch : FirstMatch sources "dist/b.ts?x" 1 := firstMatch_of_findSource? (by decide)
    have hnearest : FirstNearest 1 2 (entries.filter fun e => e.sourceIndex.toNat = 1)
        ⟨1, 4, 1, 5, 0, some 0⟩ := ⟨[], [⟨1, 0, 1, 6, 0, none⟩], by decide, by simp, by decide⟩
    exact .found hmatch rfl hnearest
  exact ⟨hascending, hpointing, hmembers, hdata, hkept, hnanos, after, changed, hingest, htraces,
    (htraces _ _ _).unique hlocated⟩

/-- A container has no entries, and a file matches only a source behind all 32-bit numbers. Once it was taken
in the miss is for want of a source. -/
theorem unknown_after_ingest_behind_all_numbers :
    let sources := behindAllNumbers "b.ts" "a.ts"
    let members : List Container.Member :=
      [.version (some Container.supportedVersion), .sources (some sources), .names [],
        .mappings (some (String.ofList (Mappings.standardText .crossLine [])))]
    let data := utf8 (Container.object members).render
    let store : Store := ⟨bareDisk, .crossLine, [], {}⟩
    Container.Complete members sources [] (String.ofList (Mappings.standardText .crossLine [])) ∧
      Json.Documents (Container.object members) data ∧
      FirstMatch sources "a.ts" UInt32.size ∧
      ∃ after changed,
        (store.ingestAt "shop" "1.0" data ⟨0, 0⟩).run bareTree = ((.ok (), after), changed) ∧
        ((after.resolve "shop" "1.0" "a.ts" 0 0).run changed).1.1 = .error .unknownSource := by
  intro sources members data store
  have hmatch : FirstMatch sources "a.ts" UInt32.size :=
    firstMatch_of_findSource? (findSource?_behindAllNumbers (by decide) (by decide))
  clear_value sources
  have hmembers : Container.Complete members sources []
      (String.ofList (Mappings.standardText .crossLine [])) := by
    constructor
    · simp [members, Container.Member.key]
    all_goals simp [members]
  have hdata := Json.documents_render (Container.object members)
  have hkept : (⟨0, 0⟩ : Time.Instant).kept = true := by decide
  have hmake : Key.make "shop" "1.0" = .ok ⟨"shop", "1.0"⟩ := by decide
  obtain ⟨after, changed, hingest⟩ := exists_run_ingestAt .crossLine hmake hmembers hdata
    (Time.Instant.read?_timestamp_eq hkept (by decide))
  obtain ⟨key, hkey, hready⟩ := ready_of_run_ingestAt hmembers hdata hkept (by decide) hingest
  have htraces := hready.traces_resolve List.Pairwise.nil (fun e he => by cases he) hkey "a.ts" 0 0
  exact ⟨hmembers, hdata, hmatch, after, changed, hingest,
    htraces.unique (.unnumbered hmatch le_rfl)⟩

end Store

end OriginMap
