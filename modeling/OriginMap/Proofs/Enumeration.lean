import OriginMap.Proofs.Disk.Order
import OriginMap.Proofs.Stats
import OriginMap.Proofs.Sweep

/-!
# The order of the data directory does not matter

A sweep and the statistics list the data directory, which gives its names in no particular order. Evictions
of keys with different stems do not meet: each reads and removes files under its own names, and whether
it succeeds depends on these only. Evictions of keys that share a stem are the same, as long as none of
these keys is loaded. So a sweep evicts in any order with the same result; statistics are sorted, and are
the same as long as no two sidecars name one key.
-/

namespace OriginMap

open Files Disk

namespace Store

variable {cutoff : Time.Instant} {store : Store} {tree changed : Tree} {key other : Key}
  {keys keys' : List Key} {number : ℕ} {folder : Folder}

/-! ## Single evictions -/

/-- A key that has not expired may be left out. -/
theorem run_evictAll_cons_of_not_expired (h : ¬store.disk.Expired cutoff tree key) (keys : List Key) :
    (store.evictAll cutoff (key :: keys)).run tree = (store.evictAll cutoff keys).run tree := by
  rw [run_evictAll_cons, run_evictIfExpired_of_not_expired h]
  rfl

/-- The data directory is stripped of an expired key. That counts, and its loaded copy is dropped, unless
a folder stands in the place of its data. -/
theorem run_evictIfExpired_eq_strip (hholds : tree.Holds store.disk.root number folder)
    (hexpired : store.disk.Expired cutoff tree key) :
    (store.evictIfExpired cutoff key).run tree =
      ((!blocked key folder, if blocked key folder then store else store.forget key),
        tree.change number (strip key)) := by
  rw [run_evictIfExpired_of_expired hexpired, run_delete_eq_strip hholds hexpired]
  cases blocked key folder <;> rfl

/-- Whether a key has expired does not depend on the eviction of one with another stem. -/
theorem expired_evictIfExpired (hstem : other.stem ≠ key.stem) :
    ((store.evictIfExpired cutoff key).run tree).1.2.disk.Expired cutoff
      ((store.evictIfExpired cutoff key).run tree).2 other ↔ store.disk.Expired cutoff tree other := by
  have hkeeps := keepsTo_evictIfExpired store cutoff key tree
  have hread : ((store.evictIfExpired cutoff key).run tree).2.read (store.disk.sidecarPath other) =
      tree.read (store.disk.sidecarPath other) :=
    hkeeps.files.read_child (fileName_notMem hstem .sidecar) (fileName_ne_empty other .sidecar)
  rw [hkeeps.disk, Expired, Expired, sidecarAt?, sidecarAt?, hread]

/-- Loaded copies may be dropped in any order. -/
theorem forget_forget (store : Store) (key other : Key) :
    (store.forget key).forget other = (store.forget other).forget key := by
  simp only [forget, List.filter_comm]

/-- A key that is not loaded is dropped without effect. -/
theorem forget_eq_self (h : store.cached? key = none) : store.forget key = store := by
  have hcache : (store.cache.filter fun item => item.1 ≠ key) = store.cache := by
    refine List.filter_eq_self.mpr fun item hitem => decide_eq_true fun hkey => ?_
    simpa [hkey] using List.lookup_eq_none_iff.mp h item hitem
  rw [forget, hcache]

/-! ## Two evictions -/

/-- Keys that share a stem and are not loaded are evicted alike. -/
theorem evictIfExpired_congr (hstem : key.stem = other.stem) (hkey : store.cached? key = none)
    (hother : store.cached? other = none) :
    store.evictIfExpired cutoff key = store.evictIfExpired cutoff other := by
  have hsidecar : store.disk.sidecarPath key = store.disk.sidecarPath other := by
    rw [sidecarPath, sidecarPath, sidecarName, sidecarName, hstem]
  have hdata : store.disk.dataPath key = store.disk.dataPath other := by
    rw [dataPath, dataPath, dataName, dataName, hstem]
  simp only [evictIfExpired, readSidecar, delete, hsidecar, hdata, forget_eq_self hkey,
    forget_eq_self hother]

/-- A loaded copy that was not there is not there after an eviction. -/
theorem cached?_evictIfExpired_eq_none (h : store.cached? other = none) (cutoff : Time.Instant)
    (key : Key) (tree : Tree) :
    ((store.evictIfExpired cutoff key).run tree).1.2.cached? other = none := by
  by_contra hne
  exact hne ((swept_evictIfExpired store cutoff key tree).cached other
    fun hsame => hne (hsame.trans h)).2

/-- Keys that share a stem and are not loaded may change places. -/
theorem run_evictAll_swap_of_stem_eq (hstem : key.stem = other.stem) (hkey : store.cached? key = none)
    (hother : store.cached? other = none) (keys : List Key) :
    (store.evictAll cutoff (key :: other :: keys)).run tree =
      (store.evictAll cutoff (other :: key :: keys)).run tree := by
  have hafter := cached?_evictIfExpired_eq_none hkey cutoff other tree
  have hafter' := cached?_evictIfExpired_eq_none hother cutoff other tree
  rw [run_evictAll_cons, run_evictAll_cons, evictIfExpired_congr hstem hkey hother]
  simp only [run_evictAll_cons _ cutoff key, run_evictAll_cons _ cutoff other,
    evictIfExpired_congr hstem hafter hafter']

/-- A key that has not expired may change places with one that has another stem. -/
theorem run_evictAll_swap_of_not_expired (hstem : key.stem ≠ other.stem)
    (h : ¬store.disk.Expired cutoff tree key) (keys : List Key) :
    (store.evictAll cutoff (key :: other :: keys)).run tree =
      (store.evictAll cutoff (other :: key :: keys)).run tree := by
  rw [run_evictAll_cons_of_not_expired h, run_evictAll_cons, run_evictAll_cons]
  simp only [run_evictAll_cons_of_not_expired (mt (expired_evictIfExpired hstem).mp h)]

/-- Two expired keys with different stems are evicted, and then the others are. -/
theorem run_evictAll_of_expired (hstem : other.stem ≠ key.stem)
    (hholds : tree.Holds store.disk.root number folder) (hkey : store.disk.Expired cutoff tree key)
    (hother : store.disk.Expired cutoff tree other) (keys : List Key) :
    (store.evictAll cutoff (key :: other :: keys)).run tree =
      let first := if blocked key folder then store else store.forget key
      let second := if blocked other folder then first else first.forget other
      let rest := (second.evictAll cutoff keys).run (tree.change number (strip other ∘ strip key))
      ((rest.1.1 + ((!blocked key folder).toNat + (!blocked other folder).toNat), rest.1.2), rest.2) := by
  have hfirst := run_evictIfExpired_eq_strip hholds hkey
  have hstill := (expired_evictIfExpired hstem).mpr hother
  have hdisk := (keepsTo_evictIfExpired store cutoff key tree).disk
  rw [hfirst] at hstill hdisk
  have hstripped := holds_strip hholds hkey
  rw [← hdisk] at hstripped
  have hsecond := run_evictIfExpired_eq_strip hstripped hstill
  rw [blocked_strip hstem, Tree.change_change] at hsecond
  rw [run_evictAll_cons, hfirst]
  simp only
  rw [run_evictAll_cons, hsecond]
  cases blocked key folder <;> cases blocked other folder <;> rfl

/-- Expired keys may change places if they have different stems. -/
theorem run_evictAll_swap_of_expired (hstem : key.stem ≠ other.stem)
    (hkey : store.disk.Expired cutoff tree key) (hother : store.disk.Expired cutoff tree other)
    (keys : List Key) :
    (store.evictAll cutoff (key :: other :: keys)).run tree =
      (store.evictAll cutoff (other :: key :: keys)).run tree := by
  obtain ⟨number, folder, hholds⟩ := hkey.exists_holds
  have hstripped : tree.change number (strip other ∘ strip key) =
      tree.change number (strip key ∘ strip other) :=
    Tree.change_congr hholds.folder (strip_strip (Ne.symm hstem) folder)
  rw [run_evictAll_of_expired (Ne.symm hstem) hholds hkey hother,
    run_evictAll_of_expired hstem hholds hother hkey, hstripped,
    Nat.add_comm (!blocked key folder).toNat]
  cases blocked key folder <;> cases blocked other folder <;>
    simp only [forget_forget store other key, if_true, Bool.false_eq_true, if_false]

/-- Two keys may change places, unless they share a stem and one of them is loaded. -/
theorem run_evictAll_swap
    (h : key.stem ≠ other.stem ∨ store.cached? key = none ∧ store.cached? other = none)
    (keys : List Key) :
    (store.evictAll cutoff (key :: other :: keys)).run tree =
      (store.evictAll cutoff (other :: key :: keys)).run tree := by
  by_cases hstem : key.stem = other.stem
  · obtain ⟨hkey, hother⟩ := h.resolve_left (not_not_intro hstem)
    exact run_evictAll_swap_of_stem_eq hstem hkey hother keys
  · by_cases hkey : store.disk.Expired cutoff tree key
    · by_cases hother : store.disk.Expired cutoff tree other
      · exact run_evictAll_swap_of_expired hstem hkey hother keys
      · exact (run_evictAll_swap_of_not_expired (Ne.symm hstem) hother keys).symm
    · exact run_evictAll_swap_of_not_expired hstem hkey keys

/-! ## All evictions -/

/-- Keys may be evicted in any order, unless two of them share a stem and the first is loaded. -/
theorem run_evictAll_perm (h : keys.Perm keys')
    (hapart : ∀ key ∈ keys, ∀ other ∈ keys, key ≠ other → store.cached? key ≠ none →
      key.stem ≠ other.stem) (tree : Tree) :
    (store.evictAll cutoff keys).run tree = (store.evictAll cutoff keys').run tree := by
  induction h generalizing store tree with
  | nil => rfl
  | @cons first rest _ _ ih =>
    let half := (store.evictIfExpired cutoff first).run tree
    have hlater : ∀ key ∈ rest, ∀ other ∈ rest, key ≠ other → half.1.2.cached? key ≠ none →
        key.stem ≠ other.stem := by
      intro key hkey other hother hne hcached
      refine hapart key (List.mem_cons_of_mem first hkey) other (List.mem_cons_of_mem first hother) hne ?_
      exact fun hnone => hcached (cached?_evictIfExpired_eq_none hnone cutoff first tree)
    have hrest := ih hlater half.2
    simp only [run_evictAll_cons, hrest, half]
  | swap key other rest =>
    have hkey : key ∈ other :: key :: rest := by simp
    have hother : other ∈ other :: key :: rest := by simp
    by_cases hsame : other = key
    · rw [hsame]
    · refine run_evictAll_swap ?_ rest
      by_cases hstem : other.stem = key.stem
      · refine Or.inr ⟨?_, ?_⟩
        · by_contra hcached
          exact hapart other hother key hkey hsame hcached hstem
        · by_contra hcached
          exact hapart key hkey other hother (Ne.symm hsame) hcached hstem.symm
      · exact Or.inl hstem
  | trans hfirst _ ih ih' =>
    refine (ih hapart tree).trans (ih' (fun key hkey other hother => ?_) tree)
    exact hapart key (hfirst.mem_iff.mpr hkey) other (hfirst.mem_iff.mpr hother)

/-- A key is evicted alike in any order of the folders. -/
theorem evictIfExpired_of_reordered (h : tree.Reordered changed) (store : Store)
    (cutoff : Time.Instant) (key : Key) :
    ((store.evictIfExpired cutoff key).run changed).1 = ((store.evictIfExpired cutoff key).run tree).1 ∧
      ((store.evictIfExpired cutoff key).run tree).2.Reordered
        ((store.evictIfExpired cutoff key).run changed).2 := by
  by_cases hexpired : store.disk.Expired cutoff tree key
  · obtain ⟨number, folder, hholds⟩ := hexpired.exists_holds
    obtain ⟨reordered, hholds', hfolder⟩ := h.exists_holds hholds
    rw [run_evictIfExpired_eq_strip hholds hexpired,
      run_evictIfExpired_eq_strip hholds' ((expired_of_reordered h).mpr hexpired),
      blocked_of_reordered hfolder]
    exact ⟨rfl, h.change (fun _ _ hsame => strip_reordered hsame key) number⟩
  · rw [run_evictIfExpired_of_not_expired hexpired,
      run_evictIfExpired_of_not_expired (mt (expired_of_reordered h).mp hexpired)]
    exact ⟨rfl, h⟩

/-- Keys are evicted alike in any order of the folders. -/
theorem evictAll_of_reordered (h : tree.Reordered changed) (store : Store) (cutoff : Time.Instant)
    (keys : List Key) :
    ((store.evictAll cutoff keys).run changed).1 = ((store.evictAll cutoff keys).run tree).1 ∧
      ((store.evictAll cutoff keys).run tree).2.Reordered
        ((store.evictAll cutoff keys).run changed).2 := by
  induction keys generalizing store tree changed with
  | nil => exact ⟨rfl, h⟩
  | cons key keys ih =>
    obtain ⟨hfirst, hbetween⟩ := evictIfExpired_of_reordered h store cutoff key
    obtain ⟨hrest, hafter⟩ := ih hbetween ((store.evictIfExpired cutoff key).run tree).1.2
    simp only [run_evictAll_cons, hfirst]
    exact ⟨by rw [hrest], hafter⟩

/-! ## Sweeps and statistics -/

/-- The keys that a sweep takes from the listed sidecars come in some order. -/
theorem listedKeys_of_reordered (disk : Disk) (cutoff : Time.Instant) (h : tree.Reordered changed) :
    (listedKeys disk cutoff tree).Perm (listedKeys disk cutoff changed) := by
  rw [listedKeys, listedKeys]
  rcases list_of_reordered disk h with ⟨e, hlist, hlist'⟩ | ⟨sidecars, sidecars', hlist, hlist', hperm⟩
  · rw [hlist, hlist']
  · rw [hlist, hlist']
    exact (hperm.filter _).map Sidecar.key

/-- Of two keys that listed sidecars name, the digests start differently if the first is loaded. -/
def Apart (store : Store) (tree : Tree) : Prop :=
  ∀ sidecars, (store.disk.list.run tree).1 = .ok sidecars →
    ∀ sidecar ∈ sidecars, ∀ other ∈ sidecars, sidecar.key ≠ other.key →
      store.cached? sidecar.key ≠ none →
        (Sha256.digest sidecar.key.fingerprint).take 8 ≠ (Sha256.digest other.key.fingerprint).take 8

/-- A sweep does the same in any order of the folders. -/
theorem sweepExpired_of_reordered (h : tree.Reordered changed) (hapart : store.Apart tree)
    {now later : Time.Instant} {age span : Time.Span} (hsame : later.minus? span = now.minus? age) :
    ((store.sweepExpired later span).run changed).1 = ((store.sweepExpired now age).run tree).1 ∧
      ((store.sweepExpired now age).run tree).2.Reordered
        ((store.sweepExpired later span).run changed).2 := by
  cases hcutoff : now.minus? age with
  | none =>
    rw [sweepExpired, sweepExpired, hsame, hcutoff]
    exact ⟨rfl, h⟩
  | some cutoff =>
    rw [run_sweepExpired hcutoff, run_sweepExpired (hsame.trans hcutoff)]
    have hkeys := listedKeys_of_reordered store.disk cutoff h
    have hstems : ∀ key ∈ listedKeys store.disk cutoff tree,
        ∀ other ∈ listedKeys store.disk cutoff tree, key ≠ other → store.cached? key ≠ none →
          key.stem ≠ other.stem := by
      intro key hkey other hother hne hcached
      obtain ⟨sidecars, hlist, sidecar, hmem, -, rfl⟩ := mem_listedKeys.mp hkey
      obtain ⟨sidecars', hlist', sidecar', hmem', -, rfl⟩ := mem_listedKeys.mp hother
      obtain rfl := Except.ok.inj (hlist.symm.trans hlist')
      exact Key.stem_ne_of_take_digest_ne (hapart sidecars hlist sidecar hmem sidecar' hmem' hne hcached)
    rw [run_evictAll_perm hkeys hstems tree]
    exact evictAll_of_reordered h store cutoff _

/-- No two sidecars that can be read in the data directory name one key. -/
def KeysDiffer (store : Store) (tree : Tree) : Prop :=
  ∀ sidecars, (store.disk.list.run tree).1 = .ok sidecars → (sidecars.map Sidecar.key).Nodup

/-- Statistics are the same in any order of the folders. -/
theorem stats_of_reordered (h : tree.Reordered changed) (hkeys : store.KeysDiffer tree) :
    (store.stats.run changed).1 = (store.stats.run tree).1 := by
  rw [run_stats, run_stats]
  rcases list_of_reordered store.disk h with
    ⟨e, hlist, hlist'⟩ | ⟨sidecars, sidecars', hlist, hlist', hperm⟩
  · rw [hlist, hlist']
  · let row (sidecar : Sidecar) : ArtifactStat := ⟨sidecar.key, sidecar.sizeBytes, sidecar.storedAt⟩
    have hrows : ((sidecars.map row).map ArtifactStat.key).Nodup := by
      rw [List.map_map]
      exact hkeys sidecars hlist
    rw [hlist, hlist']
    exact (ofArtifacts_of_perm (hperm.symm.map row) hrows).trans
      (ofArtifacts_of_perm (.refl _) hrows).symm

/-- The order in which the data directory is listed does not matter. With one cutoff, a sweep counts the
same, leaves the same store with the same loaded copies, and the same stands at every path after it, unless
the digests of two keys that sidecars name start alike. Statistics are the same, unless two sidecars name
one key. -/
theorem sweep_and_stats_of_reordered (store : Store) {tree changed : Tree} (h : tree.Reordered changed) :
    (store.Apart tree → ∀ now age later span,
      Time.Instant.minus? later span = Time.Instant.minus? now age →
        let swept := (store.sweepExpired now age).run tree
        let swept' := (store.sweepExpired later span).run changed
        swept'.1 = swept.1 ∧ swept.2.Reordered swept'.2 ∧
          ∀ path, swept'.2.walk path = swept.2.walk path) ∧
      (store.KeysDiffer tree → (store.stats.run changed).1 = (store.stats.run tree).1) := by
  refine ⟨fun hapart now age later span hsame => ?_, fun hkeys => stats_of_reordered h hkeys⟩
  obtain ⟨hstore, hfiles⟩ := sweepExpired_of_reordered h hapart hsame
  exact ⟨hstore, hfiles, hfiles.walk_eq⟩

/-- A data directory with these things in it, of which only the second number stands for a folder. -/
def listing (nodes : List (String × Node)) : Tree :=
  ⟨#[⟨0, [("data", .folder 1)]⟩, ⟨0, nodes⟩, ⟨1, []⟩], .root⟩

/-- A data directory may be listed backwards. -/
theorem listing_reordered {nodes : List (String × Node)} (h : (nodes.map Prod.fst).Nodup) :
    (listing nodes).Reordered (listing nodes.reverse) := by
  refine ⟨rfl, fun number => ?_⟩
  match number with
  | 0 => exact .some ⟨rfl, .refl _, List.nodup_singleton "data"⟩
  | 1 => exact .some ⟨rfl, nodes.reverse_perm.symm, h⟩
  | 2 => exact .some ⟨rfl, .refl _, List.nodup_nil⟩
  | _ + 3 => exact .none

/-- Such a data directory is listed as the sidecars it has the renderings of. -/
theorem list_listing {nodes : List (String × Node)} {sidecars : List Sidecar}
    (hnames : (nodes.map Prod.fst).filter isSidecarName =
      sidecars.map fun sidecar => sidecarName sidecar.key)
    (hshown : ∀ sidecar ∈ sidecars, sidecar.storedAt.Shown)
    (hnodes : ∀ sidecar ∈ sidecars,
      nodes.lookup (sidecarName sidecar.key) = some (.file sidecar.render)) :
    (bareDisk.list.run (listing nodes)).1 = .ok sidecars := by
  have hread (sidecar : Sidecar) (hmem : sidecar ∈ sidecars) :
      sidecarAt? (listing nodes) (bareDisk.path (sidecarName sidecar.key)) = some sidecar := by
    have hholds : (listing nodes).Holds bareDisk.root 1 ⟨0, nodes⟩ := ⟨rfl, rfl⟩
    have hok := (hholds.read_child_eq_ok (isName_fileName sidecar.key .sidecar)).mpr
      ⟨hasRoom_bareDisk sidecar.key .sidecar, hnodes sidecar hmem⟩
    exact sidecarAt?_eq_some.mpr ⟨_, hok, Sidecar.read_render (hshown sidecar hmem).read?_timestamp⟩
  have hlist : (bareDisk.list.run (listing nodes)).1 =
      .ok (((nodes.map Prod.fst).filter isSidecarName).filterMap
        fun name => sidecarAt? (listing nodes) (bareDisk.path name)) := by
    rw [run_list]
    rfl
  rw [hlist, hnames, List.filterMap_map, List.filterMap_congr (by simpa using hread), List.filterMap_some]

/-- Of two artifacts that have expired one is loaded and the other has a folder in the place of its data. A
sweep leaves the same in either order. -/
theorem sweep_and_stats_of_reversed :
    let first : Key := ⟨"web", "1"⟩
    let second : Key := ⟨"shop", "2"⟩
    let artifact : Artifact := ⟨first, none, ["a.ts"], [none], [], "", ⟨0, 0⟩, 5, ""⟩
    let store : Store := { bareStore with cache := [(first, ⟨0, artifact, .crossLine⟩)] }
    let nodes : List (String × Node) := [(dataName first, .file []),
      (sidecarName first, .file (Sidecar.render ⟨first, ⟨0, 0⟩, 5, ""⟩)), (dataName second, .folder 2),
      (sidecarName second, .file (Sidecar.render ⟨second, ⟨0, 0⟩, 7, ""⟩))]
    (listing nodes).Reordered (listing nodes.reverse) ∧ store.Apart (listing nodes) ∧
      Time.Instant.minus? ⟨172801, 0⟩ ⟨172800, 0⟩ = Time.Instant.minus? ⟨86401, 0⟩ ⟨86400, 0⟩ ∧
      store.KeysDiffer (listing nodes) ∧
      ((store.sweepExpired ⟨172801, 0⟩ ⟨172800, 0⟩).run (listing nodes.reverse)).1 =
        ((store.sweepExpired ⟨86401, 0⟩ ⟨86400, 0⟩).run (listing nodes)).1 ∧
      ((store.sweepExpired ⟨86401, 0⟩ ⟨86400, 0⟩).run (listing nodes)).2.Reordered
        ((store.sweepExpired ⟨172801, 0⟩ ⟨172800, 0⟩).run (listing nodes.reverse)).2 ∧
      (store.stats.run (listing nodes.reverse)).1 = (store.stats.run (listing nodes)).1 := by
  intro first second artifact store nodes
  have hdigest : (Sha256.digest first.fingerprint).take 8 ≠ (Sha256.digest second.fingerprint).take 8 := by
    decide +kernel
  have hstem : first.stem ≠ second.stem := Key.stem_ne_of_take_digest_ne hdigest
  have hown (key : Key) : dataName key ≠ sidecarName key := fileName_ne key .data .sidecar (by simp)
  have hother (kind kind' : FileKind) : fileName first kind ≠ fileName second kind' :=
    fileName_ne_of_stem_ne hstem kind kind'
  have hnames : (nodes.map Prod.fst).Nodup := by
    have hdata : dataName first ∉ [sidecarName first, dataName second, sidecarName second] := by
      simpa using ⟨hown first, hother .data .data, hother .data .sidecar⟩
    have hsidecar : sidecarName first ∉ [dataName second, sidecarName second] := by
      simpa using ⟨hother .sidecar .data, hother .sidecar .sidecar⟩
    exact List.nodup_cons.mpr ⟨hdata, List.nodup_cons.mpr ⟨hsidecar, by simpa using hown second⟩⟩
  have hlist : (bareDisk.list.run (listing nodes)).1 =
      .ok [⟨first, ⟨0, 0⟩, 5, ""⟩, ⟨second, ⟨0, 0⟩, 7, ""⟩] := by
    have hdata : sidecarName second ≠ dataName first := (hother .data .sidecar).symm
    have hsidecar : sidecarName second ≠ sidecarName first := (hother .sidecar .sidecar).symm
    refine list_listing ?_ ?_ ?_
    · have hyes (key : Key) : isSidecarName (sidecarName key) = true :=
        (isSidecarName_fileName key .sidecar).mpr rfl
      have hno (key : Key) : isSidecarName (dataName key) = false :=
        Bool.eq_false_iff.mpr (mt (isSidecarName_fileName key .data).mp (by simp))
      simp [nodes, hyes, hno]
    · exact List.forall_mem_cons.mpr ⟨⟨by decide, Or.inl (by decide)⟩,
        List.forall_mem_singleton.mpr ⟨by decide, Or.inl (by decide)⟩⟩
    · simp [nodes, List.lookup_cons, beq_false_of_ne (hown first).symm, beq_false_of_ne hdata,
        beq_false_of_ne hsidecar, beq_false_of_ne (hown second).symm]
  have hcutoff : Time.Instant.minus? ⟨172801, 0⟩ ⟨172800, 0⟩ =
      Time.Instant.minus? ⟨86401, 0⟩ ⟨86400, 0⟩ := by decide
  have hapart : store.Apart (listing nodes) := by
    intro sidecars hsidecars sidecar hmem other hother hne hcached
    obtain rfl := Except.ok.inj (hlist.symm.trans hsidecars)
    simp only [List.mem_cons, List.not_mem_nil, or_false] at hmem hother
    rcases hmem with rfl | rfl
    · rcases hother with rfl | rfl
      · exact absurd rfl hne
      · exact hdigest
    · exact absurd (by decide) hcached
  have hkeys : store.KeysDiffer (listing nodes) := by
    intro sidecars hsidecars
    obtain rfl := Except.ok.inj (hlist.symm.trans hsidecars)
    decide
  have hreordered := listing_reordered hnames
  obtain ⟨hsweep, hstats⟩ := sweep_and_stats_of_reordered store hreordered
  obtain ⟨hstore, hfiles, -⟩ := hsweep hapart _ _ _ _ hcutoff
  exact ⟨hreordered, hapart, hcutoff, hkeys, hstore, hfiles, hstats hkeys⟩

end Store

end OriginMap
