import OriginMap.Proofs.Files.Opening
import OriginMap.Proofs.Footprint
import OriginMap.Retention

/-!
# Sweeps of a day spare what is fresh

A sweep removes what was stored before an instant that lies its window earlier. If the window is a day at
least, it spares every artifact whose sidecar says that it was stored within the last day, wherever it
stands: before a key is evicted its own sidecar is read again, so that no other sidecar, whatever it says,
can make it go.
-/

namespace OriginMap

open Files Disk

/-! ## Windows -/

namespace Time

/-- The instant that lies a span earlier, whether it is in the range that is kept or not. -/
def Instant.earlier (t : Instant) (age : Span) : Instant :=
  let total : ℤ := t.seconds * secondNanos + t.nanos - age.total
  ⟨total / secondNanos, (total % secondNanos).toNat⟩

/-- The instant that lies a span earlier can be had if the span and the instant are in range. -/
theorem Instant.minus?_eq (t : Instant) (age : Span) : t.minus? age =
    if longestSpan < age.total then none
    else if (t.earlier age).kept then some (t.earlier age) else none := rfl

/-- An instant that can be had lies the span earlier. -/
theorem Instant.minus?_eq_some {t cutoff : Instant} {age : Span} (h : t.minus? age = some cutoff) :
    cutoff = t.earlier age := by
  rw [minus?_eq] at h
  split_ifs at h
  exact (Option.some.inj h).symm

/-- Instants are compared by their seconds, and within a second by the nanoseconds. -/
theorem Instant.before_iff {a b : Instant} : a.before b = true ↔
    a.seconds < b.seconds ∨ a.seconds = b.seconds ∧ a.nanos < b.nanos := by
  simp [before]

/-- The nanoseconds from the first of January 1970 to an instant. -/
def Instant.total (t : Instant) : ℤ := t.seconds * secondNanos + t.nanos

/-- What comes before an instant that lies a span earlier than now comes before one that lies a shorter span
earlier, or as long a span earlier than a later instant. -/
theorem Instant.before_earlier {now last instant : Instant} {age longer : Span}
    (hnow : now.total ≤ last.total) (hage : age.total ≤ longer.total)
    (h : instant.before (now.earlier longer) = true) : instant.before (last.earlier age) = true := by
  rw [before_iff] at h ⊢
  simp only [earlier, total, secondNanos] at h hnow ⊢
  omega

/-- If the instant that lies a span earlier than now cannot be had, then no instant that is kept comes before
it. -/
theorem Instant.before_earlier_of_minus?_eq_none {now instant : Instant} {age : Span}
    (hnow : now.kept = true) (hnanos : now.nanos < secondNanos) (hinstant : instant.kept = true)
    (h : now.minus? age = none) : instant.before (now.earlier age) = false := by
  rw [kept_iff, number_bounds.1, number_bounds.2] at hnow hinstant
  -- What cannot be had lies before all that is kept, as a span only leads back.
  have hfar : (now.earlier age).seconds < instant.seconds := by
    have hseconds : (now.earlier age).seconds =
        (now.seconds * secondNanos + now.nanos - age.total) / secondNanos := rfl
    simp only [secondNanos] at hseconds hnanos
    by_cases hlong : longestSpan < age.total
    · simp only [longestSpan] at hlong
      omega
    · rw [minus?_eq, if_neg hlong, ite_eq_right_iff] at h
      have hout : ¬(now.earlier age).kept = true := by
        intro hkept
        cases h hkept
      rw [kept_iff, number_bounds.1, number_bounds.2] at hout
      omega
  rw [Bool.eq_false_iff]
  intro hbefore
  rw [before_iff] at hbefore
  omega

/-- A number of days is a day at least unless it is zero. -/
theorem Span.day_le_days_iff {count : ℕ} :
    (Span.days 1).total ≤ (Span.days count).total ↔ count ≠ 0 := by
  simp only [Span.total, Span.days, daySeconds, secondNanos]
  omega

end Time

/-! ## What is fresh -/

/-- In a folder there is a sidecar under its name for a key, and it says that the artifact was stored
within the day before an instant. -/
def Files.Tree.FreshIn (tree : Tree) (now : Time.Instant) (number : ℕ) (key : Key) : Prop :=
  ∃ contents sidecar, tree.node? number (sidecarName key) = some (.file contents) ∧
    Sidecar.read contents = .ok sidecar ∧ sidecar.storedAt.before (now.earlier (.days 1)) = false

/-- All files of what is fresh stay as they are. -/
def Files.Tree.KeepsFresh (now : Time.Instant) (tree after : Tree) : Prop :=
  ∀ number key, tree.FreshIn now number key → ∀ kind node,
    tree.node? number (fileName key kind) = some node →
      after.node? number (fileName key kind) = some node

namespace Files.Tree

variable {now last : Time.Instant} {tree middle after : Tree} {number : ℕ} {key : Key}

/-- Nothing happens to what is fresh while nothing is done. -/
theorem KeepsFresh.refl (now : Time.Instant) (tree : Tree) : tree.KeepsFresh now tree :=
  fun _ _ _ _ _ hnode => hnode

/-- What is fresh stays fresh. -/
theorem KeepsFresh.freshIn (h : KeepsFresh now tree after) (hfresh : tree.FreshIn now number key) :
    after.FreshIn now number key := by
  obtain ⟨contents, sidecar, hnode, hread, hstored⟩ := id hfresh
  exact ⟨contents, sidecar, h number key hfresh .sidecar _ hnode, hread, hstored⟩

/-- What stays twice stays. -/
theorem KeepsFresh.trans (h : KeepsFresh now tree middle) (h' : KeepsFresh now middle after) :
    KeepsFresh now tree after :=
  fun number key hfresh kind node hnode =>
    h' number key (h.freshIn hfresh) kind node (h number key hfresh kind node hnode)

/-- What is fresh at an instant was fresh before. -/
theorem FreshIn.sooner (h : tree.FreshIn last number key) (hnow : now.total ≤ last.total) :
    tree.FreshIn now number key := by
  obtain ⟨contents, sidecar, hnode, hread, hstored⟩ := h
  refine ⟨contents, sidecar, hnode, hread, ?_⟩
  by_contra hbefore
  rw [Bool.not_eq_false] at hbefore
  rw [Time.Instant.before_earlier hnow (Nat.le_refl _) hbefore] at hstored
  cases hstored

/-- If what is fresh now stays, then what is still fresh later does. -/
theorem KeepsFresh.later (h : KeepsFresh now tree after) (hnow : now.total ≤ last.total) :
    KeepsFresh last tree after :=
  fun number key hfresh => h number key (hfresh.sooner hnow)

/-- Where all names go on standing for what they do, what is fresh stays. -/
theorem Extends.keepsFresh (h : tree.Extends after) (now : Time.Instant) :
    KeepsFresh now tree after :=
  fun number key _ kind node hnode => h number (fileName key kind) node hnode

/-- The sidecar that can be read of a fresh key says that it is fresh. -/
theorem FreshIn.of_read {disk : Disk} {folder : Folder} {contents : Bytes} {sidecar : Sidecar}
    (hfresh : tree.FreshIn now number key) (hholds : tree.Holds disk.root number folder)
    (hcontents : tree.read (disk.sidecarPath key) = .ok contents)
    (hread : Sidecar.read contents = .ok sidecar) :
    sidecar.storedAt.before (now.earlier (.days 1)) = false := by
  obtain ⟨found, stored, hnode, hfound, hstored⟩ := hfresh
  obtain ⟨-, hfile⟩ := (hholds.read_child_eq_ok (isName_fileName key .sidecar)).mp hcontents
  rw [node?, hholds.folder, Option.bind_some] at hnode
  obtain rfl : found = contents := by simpa using hnode.symm.trans hfile
  obtain rfl : stored = sidecar := Except.ok.inj (hfound.symm.trans hread)
  exact hstored

end Files.Tree

/-! ## Sweeps -/

namespace Store

/-- What is fresh stays, the files wherever they stand and the loaded copies of the store's own keys. -/
structure KeepsFresh (now : Time.Instant) (store after : Store) (tree changed : Tree) : Prop where
  /-- The data directory is the same. -/
  disk : after.disk = store.disk
  /-- The folders are the same. -/
  folders : tree.SameFolders changed
  /-- The files of what is fresh stay. -/
  files : tree.KeepsFresh now changed
  /-- The loaded copy of a key that is fresh in the data directory stays. -/
  cached : ∀ number folder key, tree.Holds store.disk.root number folder →
    tree.FreshIn now number key → after.cached? key = store.cached? key

variable {now last : Time.Instant} {store middle after : Store} {tree half changed : Tree}
  {age : Time.Span}

/-- Nothing happens to what is fresh while nothing is done. -/
theorem KeepsFresh.refl (now : Time.Instant) (store : Store) (tree : Tree) :
    KeepsFresh now store store tree tree :=
  ⟨rfl, .refl tree, .refl now tree, fun _ _ _ _ _ => rfl⟩

/-- What stays twice stays. -/
theorem KeepsFresh.trans (h : KeepsFresh now store middle tree half)
    (h' : KeepsFresh now middle after half changed) : KeepsFresh now store after tree changed := by
  refine ⟨h'.disk.trans h.disk, h.folders.trans h'.folders, h.files.trans h'.files,
    fun number folder key hholds hfresh => ?_⟩
  obtain ⟨folder', hholds'⟩ := h.folders.holds hholds
  rw [← h.disk] at hholds'
  exact (h'.cached number folder' key hholds' (h.files.freshIn hfresh)).trans
    (h.cached number folder key hholds hfresh)

/-- If what is fresh now stays, then what is still fresh later does. -/
theorem KeepsFresh.later (h : KeepsFresh now store after tree changed)
    (hnow : now.total ≤ last.total) : KeepsFresh last store after tree changed :=
  ⟨h.disk, h.folders, h.files.later hnow, fun number folder key hholds hfresh =>
    h.cached number folder key hholds (hfresh.sooner hnow)⟩

/-- A key whose sidecar cannot be read or is not older than the cutoff is not evicted. -/
theorem run_evictIfExpired_of_not_before {cutoff : Time.Instant} {key : Key}
    (h : ∀ contents sidecar, tree.read (store.disk.sidecarPath key) = .ok contents →
      Sidecar.read contents = .ok sidecar → sidecar.storedAt.before cutoff = false) :
    (store.evictIfExpired cutoff key).run tree = ((false, store), tree) := by
  rw [evictIfExpired, Script.run_bind, readSidecar, run_readSidecarAt]
  cases hcontents : tree.read (store.disk.sidecarPath key) with
  | error trouble => cases trouble <;> rfl
  | ok contents =>
    simp only
    cases hread : Sidecar.read contents with
    | error fault => rfl
    | ok sidecar =>
      simp only [h contents sidecar hcontents hread, Bool.false_eq_true, if_false]
      rfl

/-- Deleting a key whose sidecar is older than a day spares what is fresh. -/
theorem keepsFresh_of_delete {disk : Disk} {key : Key} {contents : Bytes} {sidecar : Sidecar}
    (hcontents : tree.read (disk.sidecarPath key) = .ok contents)
    (hread : Sidecar.read contents = .ok sidecar)
    (hold : sidecar.storedAt.before (now.earlier (.days 1)) = true) :
    tree.KeepsFresh now ((disk.delete key).run tree).2 := by
  have haltered := (worksOn_delete disk key tree).alteredAt fun name hname => hname.isName
  intro number other hfresh kind node hnode
  by_contra hlost
  obtain ⟨hown, folder, hholds⟩ := haltered.altered number (fileName other kind)
    fun hsame => hlost (hsame.trans hnode)
  -- Only files of the key's own stem are lost, so the fresh sidecar is the one that was read.
  obtain ⟨kind', hname⟩ := hown.exists_fileName
  have hpath : disk.sidecarPath other = disk.sidecarPath key := by
    rw [sidecarPath, sidecarPath, sidecarName, sidecarName, (fileName_inj hname).1]
  rw [← hpath] at hcontents
  rw [hfresh.of_read hholds hcontents hread] at hold
  cases hold

/-- Evicting what was stored a day ago or earlier spares what is fresh. -/
theorem keepsFresh_evictIfExpired (hage : (Time.Span.days 1).total ≤ age.total) (store : Store)
    (key : Key) (tree : Tree) :
    KeepsFresh now store ((store.evictIfExpired (now.earlier age) key).run tree).1.2 tree
      ((store.evictIfExpired (now.earlier age) key).run tree).2 := by
  by_cases hkept : ∀ contents sidecar, tree.read (store.disk.sidecarPath key) = .ok contents →
      Sidecar.read contents = .ok sidecar → sidecar.storedAt.before (now.earlier age) = false
  · rw [run_evictIfExpired_of_not_before hkept]
    exact .refl now store tree
  · simp only [not_forall, Bool.not_eq_false] at hkept
    obtain ⟨contents, sidecar, hcontents, hread, hbefore⟩ := hkept
    have hold := Time.Instant.before_earlier (Int.le_refl now.total) hage hbefore
    have hfiles := keepsFresh_of_delete hcontents hread hold
    have hkeys := keepsTo_evictIfExpired store (now.earlier age) key tree
    -- The key itself is not fresh, and of every other key the loaded copy stays.
    have hcached (number : ℕ) (folder : Folder) (other : Key)
        (hholds : tree.Holds store.disk.root number folder) (hfresh : tree.FreshIn now number other) :
        ((store.evictIfExpired (now.earlier age) key).run tree).1.2.cached? other =
          store.cached? other := by
      refine hkeys.cached other ?_
      rintro rfl
      rw [hfresh.of_read hholds hcontents hread] at hold
      cases hold
    refine ⟨hkeys.disk, ?_, ?_, hcached⟩
    · exact hkeys.files.folders
    · rcases run_evictIfExpired store (now.earlier age) key tree with hnothing | hdone
      · rw [hnothing]
        exact .refl now tree
      · rw [hdone]
        rcases hrun : (store.disk.delete key).run tree with ⟨cause | existed, last⟩
        all_goals
          rw [hrun] at hfiles
          exact hfiles

/-- Evicting keys in a row spares what is fresh. -/
theorem keepsFresh_evictAll (hage : (Time.Span.days 1).total ≤ age.total) (store : Store)
    (keys : List Key) (tree : Tree) :
    KeepsFresh now store ((store.evictAll (now.earlier age) keys).run tree).1.2 tree
      ((store.evictAll (now.earlier age) keys).run tree).2 := by
  induction keys generalizing store tree with
  | nil => exact .refl now store tree
  | cons key keys ih =>
    rw [run_evictAll_cons]
    exact (keepsFresh_evictIfExpired hage store key tree).trans (ih _ _)

/-- A sweep whose window is a day at least spares what is fresh. -/
theorem keepsFresh_sweepExpired (hage : (Time.Span.days 1).total ≤ age.total) (store : Store)
    (now : Time.Instant) (tree : Tree) :
    KeepsFresh now store ((store.sweepExpired now age).run tree).1.2 tree
      ((store.sweepExpired now age).run tree).2 := by
  cases hcutoff : now.minus? age with
  | none =>
    rw [sweepExpired, hcutoff]
    exact .refl now store tree
  | some cutoff =>
    rw [run_sweepExpired hcutoff]
    obtain rfl := Time.Instant.minus?_eq_some hcutoff
    exact keepsFresh_evictAll hage store _ tree

end Store

/-! ## Sweepers -/

namespace Sweeper

variable {sweeper : Sweeper}

/-- A sweeper whose window is a day at least spares what is fresh. -/
theorem keepsFresh_runOnce (h : (Time.Span.days 1).total ≤ sweeper.maxAge.total) (store : Store)
    (now : Time.Instant) (tree : Tree) :
    store.KeepsFresh now ((sweeper.runOnce store now).run tree).1.2 tree
      ((sweeper.runOnce store now).run tree).2 :=
  Store.keepsFresh_sweepExpired h store now tree

/-- A sweeper whose window is a day at least spares what is fresh when its turn comes. -/
theorem keepsFresh_wait (h : (Time.Span.days 1).total ≤ sweeper.maxAge.total) (time : Time.Span)
    (store : Store) (now : Time.Instant) (tree : Tree) :
    store.KeepsFresh now ((sweeper.wait time store now).run tree).1.2 tree
      ((sweeper.wait time store now).run tree).2 := by
  unfold wait
  split_ifs
  · exact keepsFresh_runOnce h store now tree
  · exact .refl now store tree

/-- What happens while time after time passes, each until an instant. -/
def turns (sweeper : Sweeper) (store : Store) : List (Time.Span × Time.Instant) → Script Store
  | [] => return store
  | (time, now) :: later => do
    let (_, after) ← sweeper.wait time store now
    sweeper.turns after later

/-- A sweeper whose window is a day at least spares, at all its turns, what is still fresh after them. -/
theorem keepsFresh_turns (h : (Time.Span.days 1).total ≤ sweeper.maxAge.total) {last : Time.Instant}
    {turns : List (Time.Span × Time.Instant)} (hturns : ∀ turn ∈ turns, turn.2.total ≤ last.total)
    (store : Store) (tree : Tree) :
    store.KeepsFresh last ((sweeper.turns store turns).run tree).1 tree
      ((sweeper.turns store turns).run tree).2 := by
  induction turns generalizing store tree with
  | nil => exact .refl last store tree
  | cons turn turns ih =>
    obtain ⟨hturn, hlater⟩ := List.forall_mem_cons.mp hturns
    rw [Sweeper.turns, Script.run_bind]
    exact ((keepsFresh_wait h turn.1 store turn.2 tree).later hturn).trans (ih hlater _ _)

end Sweeper

end OriginMap
