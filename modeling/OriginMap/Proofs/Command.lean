import OriginMap.Command.Run
import OriginMap.Proofs.Config
import OriginMap.Proofs.Retention

/-!
# Sweeps of the command line

Before a command line sweeps, it only looks for settings and makes the data directory. The window of its
sweep is that of settings which were checked, or the days that the command line gives. The latter are not
checked: zero days are taken for what they are, and then a sweep removes what was stored just before.
-/

namespace OriginMap

open Files

/-! ## Before a sweep -/

namespace Config

/-- Looking for a file of variables in folders, one after another, only looks. -/
theorem EnvFile.adds_findIn (folders : List Path) : (findIn folders).Adds := by
  induction folders with
  | nil => exact Script.adds_pure _
  | cons folder folders ih =>
    refine (Script.adds_perform rfl).bind fun answer => ?_
    rcases answer with (_ | _) | contents
    · exact ih
    · refine (Script.adds_perform rfl).bind fun passes => ?_
      split
      · exact ih
      · exact Script.adds_pure _
    · exact Script.adds_pure _

/-- Looking for a file of variables from the working directory upward only looks. -/
theorem EnvFile.adds_find : find.Adds := by
  refine (Script.adds_perform rfl).bind fun answer => ?_
  rcases answer with trouble | here
  · exact Script.adds_pure _
  · exact adds_findIn _

/-- Loading a file of variables only looks. -/
theorem EnvFile.adds_load? (environment : Environment) : (EnvFile.load? environment).Adds := by
  refine adds_find.bind fun found => ?_
  cases found with
  | none => exact Script.adds_pure _
  | some contents => exact Script.adds_pure _

/-- Loading sources in a row only looks if loading each does. -/
theorem adds_loadOver {sources : List Source} (h : ∀ source ∈ sources, source.load.Adds)
    (lower : Layer) : (loadOver lower sources).Adds := by
  induction sources generalizing lower with
  | nil => exact Script.adds_pure _
  | cons source sources ih =>
    refine (h source List.mem_cons_self).bind fun answer => ?_
    cases answer with
    | error e => exact Script.adds_pure _
    | ok layer => exact ih (fun other hother => h other (List.mem_cons_of_mem source hother)) _

/-- Loading a file of settings only looks. -/
theorem Source.adds_file (name : String) (required : Bool) : (Source.file name required).load.Adds := by
  refine (Script.adds_perform rfl).bind fun answer => ?_
  cases answer with
  | error trouble =>
    simp only
    split_ifs
    · exact Script.adds_pure _
    · exact Script.adds_pure _
  | ok contents => exact Script.adds_pure _

/-- Loading the settings of the program only looks. -/
theorem adds_load_standard (file : Option String) (environment : Environment) :
    (load (standardSources file environment)).Adds := by
  have hsource : ∀ source ∈ standardSources file environment, source.load.Adds := by
    intro source hsource
    simp only [standardSources, List.mem_cons, List.not_mem_nil, or_false] at hsource
    rcases hsource with rfl | rfl | rfl
    · exact Script.adds_pure _
    · cases file with
      | none => exact Source.adds_file _ _
      | some name => exact Source.adds_file _ _
    · exact Script.adds_pure _
  refine (adds_loadOver (fun source hmem => hsource source ?_) _).bind fun answer => ?_
  · exact List.mem_mergeSort.mp hmem
  · cases answer with
    | error e => exact Script.adds_pure _
    | ok layer => exact Script.adds_pure _

end Config

/-- Making the data directory ready makes folders only. -/
theorem Disk.adds_makeReady (root : Path) : (Disk.makeReady root).Adds := by
  refine (Script.adds_makeFolders root).bind fun answer => ?_
  cases answer with
  | error trouble => exact Script.adds_pure _
  | ok _ => exact Script.adds_pure _

/-- Opening a store makes folders only. -/
theorem Store.adds_openAt (root : Path) (mode : Accumulation) (ledger : Ledger) :
    (Store.openAt root mode ledger).Adds := by
  refine (Disk.adds_makeReady root).bind fun answer => ?_
  cases answer with
  | error e => exact Script.adds_pure _
  | ok disk => exact Script.adds_pure _

/-! ## Windows -/

/-- The window of a sweeper that settings describe is a day at least once they were loaded. -/
theorem Sweeper.day_le_ofSettings {sources : List Config.Source} {tree : Tree}
    {settings : Config.Settings} (h : ((Config.load sources).run tree).1 = .ok settings) :
    (Time.Span.days 1).total ≤ (Sweeper.ofSettings settings.store).maxAge.total :=
  Time.Span.day_le_days_iff.mpr fun hzero =>
    (Config.ne_zero_of_load h).1 (UInt32.toNat_inj.mp hzero)

namespace Command

/-- Once the settings were loaded, the window of a single sweep is a day at least exactly if the command
line does not give zero days. -/
theorem day_le_sweeperOf_iff {sources : List Config.Source} {tree : Tree} {settings : Config.Settings}
    (h : ((Config.load sources).run tree).1 = .ok settings) (maxAgeDays : Option UInt32) :
    (Time.Span.days 1).total ≤ (sweeperOf settings.store maxAgeDays).maxAge.total ↔
      maxAgeDays ≠ some 0 := by
  cases maxAgeDays with
  | none => exact iff_of_true (Sweeper.day_le_ofSettings h) nofun
  | some days =>
    have hzero : days.toNat = 0 ↔ some days = some 0 := by
      rw [Option.some_inj, ← UInt32.toNat_inj, UInt32.toNat_zero]
    exact Time.Span.day_le_days_iff.trans (not_congr hzero)

/-! ## Runs -/

/-- A run spares what is fresh, and if it goes on watching then all its sweeps have a window of a day at
least. -/
structure SparesFresh (now : Time.Instant) (script : Script Outcome) (tree : Tree) : Prop where
  /-- The files of what is fresh stay. -/
  files : tree.KeepsFresh now (script.run tree).2
  /-- The sweeps to come have such a window. -/
  watching : ∀ sweeper store, (script.run tree).1 = .watching sweeper store →
    (Time.Span.days 1).total ≤ sweeper.maxAge.total

variable {now : Time.Instant} {tree : Tree}

/-- A run that ends at once, and does not go on watching, spares what is fresh. -/
theorem sparesFresh_pure {outcome : Outcome}
    (h : ∀ sweeper store, outcome ≠ .watching sweeper store) :
    SparesFresh now (pure outcome) tree :=
  ⟨.refl now tree, fun sweeper store houtcome => absurd houtcome (h sweeper store)⟩

/-- Looking around and making folders first does no harm. -/
theorem sparesFresh_bind {α : Type} {script : Script α} {next : α → Script Outcome}
    (h : script.Adds) (hnext : SparesFresh now (next (script.run tree).1) (script.run tree).2) :
    SparesFresh now (script >>= next) tree := by
  constructor
  · rw [Script.run_bind]
    exact ((h.extends tree).keepsFresh now).trans hnext.files
  · intro sweeper store
    rw [Script.run_bind]
    exact hnext.watching sweeper store

section Action

variable {settings : Config.StoreSettings} {maxAgeDays : Option UInt32} {store after : Store}
  {removed : ℕ} {changed : Tree}

/-- A single sweep reports how many artifacts it removed. -/
theorem run_sweep (h : ((sweeperOf settings maxAgeDays).runOnce store now).run tree =
      ((removed, after), changed)) :
    (Action.run settings now store (.sweep maxAgeDays)).run tree =
      (.printed (document (sweepReport removed)), changed) := by
  simp only [Action.run, Script.run_bind, Script.run_pure, h]

/-- A watch sweeps once and goes on with the same sweeper. -/
theorem run_watch (h : ((Sweeper.ofSettings settings).runOnce store now).run tree =
      ((removed, after), changed)) : (Action.run settings now store .watch).run tree =
      (.watching (Sweeper.ofSettings settings).start after, changed) := by
  simp only [Action.run, Script.run_bind, Script.run_pure, h]

/-- A sweep spares what is fresh if its window is a day at least. -/
theorem sparesFresh_sweep
    (h : (Time.Span.days 1).total ≤ (sweeperOf settings maxAgeDays).maxAge.total) (now : Time.Instant)
    (store : Store) (tree : Tree) :
    SparesFresh now (Action.run settings now store (.sweep maxAgeDays)) tree := by
  have hkept := (Sweeper.keepsFresh_runOnce h store now tree).files
  rcases hrun : ((sweeperOf settings maxAgeDays).runOnce store now).run tree with
    ⟨⟨removed, after⟩, changed⟩
  rw [hrun] at hkept
  constructor
  · rw [run_sweep hrun]
    exact hkept
  · intro sweeper later houtcome
    rw [run_sweep hrun] at houtcome
    cases houtcome

/-- A watch spares what is fresh if its window is a day at least. -/
theorem sparesFresh_watch
    (h : (Time.Span.days 1).total ≤ (Sweeper.ofSettings settings).maxAge.total) (now : Time.Instant)
    (store : Store) (tree : Tree) :
    SparesFresh now (Action.run settings now store .watch) tree := by
  have hkept := (Sweeper.keepsFresh_runOnce h store now tree).files
  rcases hrun : ((Sweeper.ofSettings settings).runOnce store now).run tree with
    ⟨⟨removed, after⟩, changed⟩
  rw [hrun] at hkept
  constructor
  · rw [run_watch hrun]
    exact hkept
  · intro sweeper later houtcome
    rw [run_watch hrun] at houtcome
    rw [← (Outcome.watching.inj houtcome).1]
    exact h

end Action

/-- Tasks that sweep or watch spare what is fresh, unless they are given zero days. -/
theorem sparesFresh_task {task : Task}
    (haction : task.action = .watch ∨ ∃ maxAgeDays, task.action = .sweep maxAgeDays)
    (hdays : task.action ≠ .sweep (some 0)) (environment : Config.Environment) (now : Time.Instant)
    (tree : Tree) : SparesFresh now (task.run environment now) tree := by
  unfold Task.run
  refine sparesFresh_bind (Config.EnvFile.adds_load? environment) ?_
  generalize ((Config.EnvFile.load? environment).run tree).2 = tree
  cases ((Config.EnvFile.load? environment).run _).1 with
  | none => exact sparesFresh_pure nofun
  | some environment =>
    refine sparesFresh_bind (Config.adds_load_standard task.config environment) ?_
    cases hload : ((Config.load (Config.standardSources task.config environment)).run tree).1 with
    | error cause => exact sparesFresh_pure nofun
    | ok settings =>
      simp only
      split_ifs
      · refine sparesFresh_bind (Store.adds_openAt _ _ _) ?_
        cases ((Store.openAt _ settings.store.accumulation {}).run _).1 with
        | error cause => exact sparesFresh_pure nofun
        | ok store =>
          rcases haction with hwatch | ⟨maxAgeDays, hsweep⟩
          · rw [hwatch]
            exact sparesFresh_watch (Sweeper.day_le_ofSettings hload) now store _
          · rw [hsweep]
            refine sparesFresh_sweep ((day_le_sweeperOf_iff hload maxAgeDays).mpr ?_) now store _
            rintro rfl
            exact hdays hsweep
      · exact sparesFresh_pure nofun

/-- What a task comes to whose settings can be loaded and whose store can be opened. -/
theorem run_task (environment given : Config.Environment) (task : Task) (settings : Config.Settings)
    {words : List String} {store : Store} {opened : Tree}
    (hread : Request.read (environment.lookup "RETRACE_CONFIG") words = .ok (.task task))
    (hgiven : (Config.EnvFile.load? environment).run tree = (some given, tree))
    (hload : (Config.load (Config.standardSources task.config given)).run tree = (.ok settings, tree))
    (hlog : Log.canStart (given.lookup Log.variableName) settings.logging.level = true)
    (hopen : (Store.openAt (.ofText (task.dataDir.getD settings.store.dataDir))
      settings.store.accumulation {}).run tree = (.ok store, opened)) :
    (run environment now words).run tree = (task.action.run settings.store now store).run opened := by
  unfold run
  rw [hread]
  simp only [Task.run, Script.run_bind, hgiven, hload, hlog, hopen, if_true]

/-! ## A tree with one artifact -/

/-- A data directory with one artifact, which was stored at an instant. -/
def stockedTree (key : Key) (storedAt : Time.Instant) : Tree :=
  ⟨#[⟨0, [("data", .folder 1)]⟩, ⟨0, [(Disk.dataName key, .file [1, 2, 3]),
    (Disk.sidecarName key, .file (Sidecar.render ⟨key, storedAt, 3, ""⟩))]⟩], .root⟩

/-- The artifact is fresh if it was stored within the last day. -/
theorem freshIn_stockedTree (key : Key) {storedAt now : Time.Instant} (hkept : storedAt.kept = true)
    (hnanos : storedAt.nanos < Time.secondNanos)
    (hfresh : storedAt.before (now.earlier (.days 1)) = false) :
    (stockedTree key storedAt).FreshIn now 1 key := by
  have hname : Disk.sidecarName key ≠ Disk.dataName key :=
    Disk.fileName_ne key .sidecar .data (by decide)
  refine ⟨Sidecar.render ⟨key, storedAt, 3, ""⟩, ⟨key, storedAt, 3, ""⟩, ?_, ?_, hfresh⟩
  · simp [stockedTree, Tree.node?, Folder.node?, List.lookup_cons, beq_eq_false_iff_ne.mpr hname]
  · exact Sidecar.read_render (Time.Instant.read?_timestamp_eq hkept hnanos)

/-- On the tree with one artifact, a sweep of the command line is one with the default settings. -/
theorem run_sweep_stockedTree (key : Key) (storedAt now : Time.Instant) (maxAgeDays : UInt32)
    {days : String} (hread : Request.read none ["sweep", "--max-age-days", days, "--data-dir", "/data"] =
      .ok (.task ⟨none, some "/data", .sweep (some maxAgeDays)⟩)) :
    (run [] now ["sweep", "--max-age-days", days, "--data-dir", "/data"]).run
        (stockedTree key storedAt) =
      (Action.run {} now ⟨⟨["", "data"]⟩, .crossLine, [], {}⟩ (.sweep (some maxAgeDays))).run
        (stockedTree key storedAt) := by
  have hgiven : (Config.EnvFile.load? []).run (stockedTree key storedAt) =
      (some [], stockedTree key storedAt) := by
    rfl
  have hload : (Config.load (Config.standardSources none [])).run (stockedTree key storedAt) =
      (.ok {}, stockedTree key storedAt) := by
    rw [Config.load, Config.byPrecedence_eq_inOrder]
    rfl
  have hlog : Log.canStart (([] : Config.Environment).lookup Log.variableName)
      ({} : Config.Settings).logging.level = true := by
    decide +kernel
  have hopen : (Store.openAt (.ofText "/data") .crossLine {}).run (stockedTree key storedAt) =
      (.ok ⟨⟨["", "data"]⟩, .crossLine, [], {}⟩, stockedTree key storedAt) := by
    rfl
  exact run_task [] [] ⟨none, some "/data", .sweep (some maxAgeDays)⟩ {} hread hgiven hload hlog hopen

/-! ## Sweeps -/

/-- Once settings were loaded, a sweeper that they describe has a window of a day at least, and the single
sweep of a command line has one exactly if it is not given zero days. A sweeper with such a window spares
what is fresh, and while it runs, what is still fresh after all its turns. And so does every command line
that sweeps or watches, whatever the files are, unless it is given zero days. -/
theorem fresh_artifacts_spared (sources : List Config.Source) (environment : Config.Environment)
    (words : List String) (now : Time.Instant) (tree : Tree) :
    (∀ settings : Config.Settings, ((Config.load sources).run tree).1 = .ok settings →
      (Time.Span.days 1).total ≤ (Sweeper.ofSettings settings.store).maxAge.total ∧
        ∀ maxAgeDays, (Time.Span.days 1).total ≤ (sweeperOf settings.store maxAgeDays).maxAge.total ↔
          maxAgeDays ≠ some 0) ∧
    (∀ (sweeper : Sweeper) (store : Store), (Time.Span.days 1).total ≤ sweeper.maxAge.total →
      store.KeepsFresh now ((sweeper.runOnce store now).run tree).1.2 tree
          ((sweeper.runOnce store now).run tree).2 ∧
        ∀ turns : List (Time.Span × Time.Instant), (∀ turn ∈ turns, turn.2.total ≤ now.total) →
          store.KeepsFresh now ((sweeper.turns store turns).run tree).1 tree
            ((sweeper.turns store turns).run tree).2) ∧
    ∀ task : Task, Request.read (environment.lookup "RETRACE_CONFIG") words = .ok (.task task) →
      (task.action = .watch ∨ ∃ maxAgeDays, task.action = .sweep maxAgeDays) →
        task.action ≠ .sweep (some 0) → SparesFresh now (run environment now words) tree := by
  refine ⟨fun settings hload => ?_, fun sweeper store hage => ?_, fun task hread haction hdays => ?_⟩
  · exact ⟨Sweeper.day_le_ofSettings hload, day_le_sweeperOf_iff hload⟩
  · exact ⟨Sweeper.keepsFresh_runOnce hage store now tree,
      fun turns hturns => Sweeper.keepsFresh_turns hage hturns store tree⟩
  · unfold run
    rw [hread]
    exact sparesFresh_task haction hdays environment now tree

/-- A sweep of one day spares the artifact, and so do a sweeper of one day and a command line. -/
theorem fresh_artifacts_spared_by_one_day :
    let key : Key := ⟨"web", "1"⟩
    let now : Time.Instant := ⟨259200, 0⟩
    let tree := stockedTree key ⟨216000, 0⟩
    let words := ["sweep", "--max-age-days", "1", "--data-dir", "/data"]
    let sweeper := (sweeperOf {} (some 1)).start
    let turns : List (Time.Span × Time.Instant) := [(.days 1, ⟨172800, 0⟩), (.days 1, now)]
    ((Config.load (Config.standardSources none [])).run tree).1 = .ok {} ∧
      (Time.Span.days 1).total ≤ sweeper.maxAge.total ∧
      Store.bareStore.KeepsFresh now ((sweeper.turns Store.bareStore turns).run tree).1 tree
        ((sweeper.turns Store.bareStore turns).run tree).2 ∧
      Request.read none words = .ok (.task ⟨none, some "/data", .sweep (some 1)⟩) ∧
      SparesFresh now (run [] now words) tree ∧ tree.FreshIn now 1 key ∧
      ((run [] now words).run tree).2.node? 1 (Disk.dataName key) = some (.file [1, 2, 3]) := by
  intro key now tree words sweeper turns
  obtain ⟨hwindow, hsweeper, hline⟩ :=
    fresh_artifacts_spared (Config.standardSources none []) [] words now tree
  have hload : ((Config.load (Config.standardSources none [])).run tree).1 = .ok {} := by
    rw [Config.load, Config.byPrecedence_eq_inOrder]
    rfl
  have hage := ((hwindow {} hload).2 (some 1)).mpr (by decide)
  have hread : Request.read none words = .ok (.task ⟨none, some "/data", .sweep (some 1)⟩) := by
    decide +kernel
  have hspared := hline _ hread (Or.inr ⟨some 1, rfl⟩) (by decide)
  have hfresh : tree.FreshIn now 1 key := freshIn_stockedTree key (by decide) (by decide) (by decide)
  have hnode : tree.node? 1 (Disk.dataName key) = some (.file [1, 2, 3]) := by decide +kernel
  exact ⟨hload, hage, (hsweeper sweeper Store.bareStore hage).2 turns (by decide), hread, hspared,
    hfresh, hspared.files 1 key hfresh .data _ hnode⟩

/-- A sweep of zero days removes what was stored half a day before. -/
theorem fresh_artifact_swept :
    let key : Key := ⟨"web", "1"⟩
    let now : Time.Instant := ⟨259200, 0⟩
    let tree := stockedTree key ⟨216000, 0⟩
    let swept := (run [] now ["sweep", "--max-age-days", "0", "--data-dir", "/data"]).run tree
    tree.FreshIn now 1 key ∧
      tree.node? 1 (Disk.dataName key) = some (.file [1, 2, 3]) ∧
      swept.1.output = document (sweepReport 1) ∧
      swept.2.node? 1 (Disk.dataName key) = none ∧ swept.2.node? 1 (Disk.sidecarName key) = none := by
  intro key now tree swept
  have hswept : swept = (Action.run {} now ⟨⟨["", "data"]⟩, .crossLine, [], {}⟩
      (.sweep (some 0))).run tree :=
    run_sweep_stockedTree key ⟨216000, 0⟩ now 0 (by decide +kernel)
  refine ⟨freshIn_stockedTree key (by decide) (by decide) (by decide), ?_⟩
  rw [hswept]
  decide +kernel

end Command

end OriginMap
