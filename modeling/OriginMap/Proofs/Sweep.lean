import OriginMap.Proofs.Disk.Expiry
import OriginMap.Proofs.Disk.Room
import OriginMap.Proofs.Retention

/-!
# A sweep removes what has expired

A sweep takes its keys from what the listed sidecars say, and reads the sidecar in a key's own place
before it deletes the key. So it removes nothing but files and loaded copies of expired keys, whatever
stands in the data directory. If every sidecar that is listed stands in the place of the key that it
names, and none of the deletions fails, it removes all keys that are due and counts each of them once;
there is nothing left to sweep then.
-/

namespace OriginMap

open Files Disk

namespace Store

variable {cutoff : Time.Instant} {store middle after : Store} {tree half changed : Tree}
  {key other : Key} {number : ℕ} {folder : Folder}

/-! ## What a sweep may remove -/

/-- A store and its tree come from what they were by the removal of expired keys only. -/
structure Swept (cutoff : Time.Instant) (store after : Store) (tree changed : Tree) : Prop where
  /-- The store works on the same data directory. -/
  disk : after.disk = store.disk
  /-- Only sidecars and data of expired keys are lost, in the data directory. -/
  files : tree.LosesAt store.disk.root (store.disk.ExpiredName cutoff tree) changed
  /-- Only loaded copies of expired keys are dropped, and no other one takes their place. -/
  cached : ∀ key, after.cached? key ≠ store.cached? key →
    store.disk.Expired cutoff tree key ∧ after.cached? key = none

/-- Nothing is removed while nothing is done. -/
theorem Swept.refl (cutoff : Time.Instant) (store : Store) (tree : Tree) :
    Swept cutoff store store tree tree :=
  ⟨rfl, .refl _ _ tree, fun _ hne => absurd rfl hne⟩

/-- Expired keys may be removed twice, as none expires in between. -/
theorem Swept.trans (h : Swept cutoff store middle tree half)
    (h' : Swept cutoff middle after half changed) : Swept cutoff store after tree changed := by
  obtain ⟨hdisk, hfiles, hcached⟩ := h'
  rw [h.disk] at hdisk hfiles hcached
  constructor
  · exact hdisk
  · apply h.files.trans
    apply hfiles.mono
    rintro name ⟨key, hexpired, hname⟩
    exact ⟨key, hexpired.of_losesAt h.files, hname⟩
  · intro key hne
    by_cases hlater : after.cached? key = middle.cached? key
    · rw [hlater] at hne ⊢
      exact h.cached key hne
    · obtain ⟨hexpired, hgone⟩ := hcached key hlater
      exact ⟨hexpired.of_losesAt h.files, hgone⟩

/-- A key that has not expired is not evicted. -/
theorem run_evictIfExpired_of_not_expired (h : ¬store.disk.Expired cutoff tree key) :
    (store.evictIfExpired cutoff key).run tree = ((false, store), tree) := by
  apply run_evictIfExpired_of_not_before
  intro contents sidecar hread hsidecar
  by_contra hbefore
  rw [Bool.not_eq_false] at hbefore
  exact h ⟨sidecar, sidecarAt?_eq_some.mpr ⟨contents, hread, hsidecar⟩, hbefore⟩

/-- An expired key is deleted, and its loaded copy is dropped if that succeeds. -/
theorem run_evictIfExpired_of_expired (h : store.disk.Expired cutoff tree key) :
    (store.evictIfExpired cutoff key).run tree =
      match (store.disk.delete key).run tree with
      | (.ok _, changed) => ((true, store.forget key), changed)
      | (.error _, changed) => ((false, store), changed) := by
  obtain ⟨sidecar, hplace, hbefore⟩ := h
  obtain ⟨contents, hread, hsidecar⟩ := sidecarAt?_eq_some.mp hplace
  rw [evictIfExpired, Script.run_bind, readSidecar, run_readSidecarAt, hread]
  simp only [hsidecar, hbefore, if_true]
  rw [Script.run_bind]
  rcases (store.disk.delete key).run tree with ⟨_ | _, changed⟩ <;> rfl

/-- Evicting a key removes it if it has expired, and nothing else. -/
theorem swept_evictIfExpired (store : Store) (cutoff : Time.Instant) (key : Key) (tree : Tree) :
    Swept cutoff store ((store.evictIfExpired cutoff key).run tree).1.2 tree
      ((store.evictIfExpired cutoff key).run tree).2 := by
  by_cases h : store.disk.Expired cutoff tree key
  · have hfiles : tree.LosesAt store.disk.root (store.disk.ExpiredName cutoff tree)
        ((store.disk.delete key).run tree).2 :=
      (losesAt_delete store.disk key tree).mono fun name hname => ⟨key, h, hname⟩
    rw [run_evictIfExpired_of_expired h]
    rcases hrun : (store.disk.delete key).run tree with ⟨cause | existed, changed⟩
    all_goals rw [hrun] at hfiles
    · exact ⟨rfl, hfiles, fun _ hne => absurd rfl hne⟩
    · refine ⟨rfl, hfiles, fun other hne => ?_⟩
      simp only [cached?_forget] at hne ⊢
      by_cases hkey : other = key
      · rw [if_pos hkey, hkey]
        exact ⟨h, rfl⟩
      · rw [if_neg hkey] at hne
        exact absurd rfl hne
  · rw [run_evictIfExpired_of_not_expired h]
    exact .refl cutoff store tree

/-- Evicting keys removes those that have expired, and nothing else. -/
theorem swept_evictAll (store : Store) (cutoff : Time.Instant) (keys : List Key) (tree : Tree) :
    Swept cutoff store ((store.evictAll cutoff keys).run tree).1.2 tree
      ((store.evictAll cutoff keys).run tree).2 := by
  induction keys generalizing store tree with
  | nil => exact .refl cutoff store tree
  | cons key keys ih =>
    rw [run_evictAll_cons]
    exact (swept_evictIfExpired store cutoff key tree).trans (ih _ _)

/-- Evicting keys keeps the loaded copies of all others. -/
theorem cached?_evictAll {keys : List Key} (hkey : key ∉ keys) (store : Store)
    (cutoff : Time.Instant) (tree : Tree) :
    ((store.evictAll cutoff keys).run tree).1.2.cached? key = store.cached? key := by
  induction keys generalizing store tree with
  | nil => rfl
  | cons evicted keys ih =>
    rw [List.mem_cons, not_or] at hkey
    obtain ⟨hne, hrest⟩ := hkey
    rw [run_evictAll_cons]
    exact (ih hrest _ _).trans ((keepsTo_evictIfExpired store cutoff evicted tree).cached key hne)

/-! ## What evictions remove -/

/-- A key has neither a sidecar nor data, and no loaded copy. -/
structure Gone (key : Key) (store : Store) (tree : Tree) : Prop where
  /-- There is no sidecar. -/
  sidecar : tree.walk (store.disk.sidecarPath key) = .error .missing
  /-- There is no data. -/
  data : tree.walk (store.disk.dataPath key) = .error .missing
  /-- There is no loaded copy. -/
  cached : store.cached? key = none

/-- What is gone stays gone while other keys are removed. -/
theorem Gone.of_swept (h : Gone key middle half) (hholds : half.Holds middle.disk.root number folder)
    (hswept : Swept cutoff middle after half changed) : Gone key after changed := by
  constructor
  · rw [hswept.disk]
    exact hswept.files.walk_child_missing hholds (isName_fileName key .sidecar) h.sidecar
  · rw [hswept.disk]
    exact hswept.files.walk_child_missing hholds (isName_fileName key .data) h.data
  · by_contra hne
    exact hne (hswept.cached key fun hsame => hne (hsame.trans h.cached)).2

/-- A key that is gone has not expired. -/
theorem Gone.not_expired (h : Gone key store tree) : ¬store.disk.Expired cutoff tree key := by
  rintro ⟨sidecar, hplace, -⟩
  obtain ⟨contents, hread, -⟩ := sidecarAt?_eq_some.mp hplace
  have hwalk := Tree.walk_of_read hread
  rw [h.sidecar] at hwalk
  cases hwalk

/-- A key that is due and has no folder in the place of its data is evicted, and the others that are due
stay so. -/
theorem run_evictIfExpired_of_due (h : store.disk.Due cutoff tree key)
    (hdata : ∀ inner, tree.walk (store.disk.dataPath key) ≠ .ok (.folder inner)) :
    ∃ changed, (store.evictIfExpired cutoff key).run tree = ((true, store.forget key), changed) ∧
      Gone key (store.forget key) changed ∧
      (∃ number folder, changed.Holds store.disk.root number folder) ∧
      ∀ other, store.disk.Due cutoff changed other ↔ store.disk.Due cutoff tree other ∧ other ≠ key := by
  obtain ⟨changed, hdelete⟩ := run_delete_of_expired h.expired hdata
  have hrun : (store.evictIfExpired cutoff key).run tree = ((true, store.forget key), changed) := by
    rw [run_evictIfExpired_of_expired h.expired, hdelete]
  have hlost := losesAt_delete store.disk key tree
  have hbeside := sameBeside_delete store.disk key tree
  rw [hdelete] at hlost hbeside
  obtain ⟨hsidecar, hmissing⟩ := walk_of_run_delete hdelete
  have hgone : Gone key (store.forget key) changed := ⟨hsidecar, hmissing, by simp⟩
  refine ⟨changed, hrun, hgone, ?_, fun other => ⟨fun hother => ⟨hother.of_losesAt hlost, ?_⟩, ?_⟩⟩
  · obtain ⟨number, folder, hholds⟩ := h.expired.exists_holds
    obtain ⟨rest, hrest⟩ := hlost.folders.holds hholds
    exact ⟨number, rest, hrest⟩
  · rintro rfl
    exact hgone.not_expired hother.expired
  · rintro ⟨hother, hne⟩
    -- Of the other keys that are due none has the stem of the key, so their sidecars stay.
    have hstem : other.stem ≠ key.stem := fun hstem => hne (hother.eq_of_stem h hstem)
    have hsame : changed.read (store.disk.sidecarPath other) =
        tree.read (store.disk.sidecarPath other) :=
      hbeside.read_child (fileName_notMem hstem .sidecar) (fileName_ne_empty other .sidecar)
    obtain ⟨sidecar, hplace, hkey, hbefore⟩ := hother
    rw [sidecarAt?, ← hsame, ← sidecarAt?] at hplace
    exact ⟨sidecar, hplace, hkey, hbefore⟩

/-- Evicting keys removes those that are due and counts each of them once, if those that have expired
are due and no folder stands in the place of their data. -/
theorem count_evictAll {keys : List Key}
    (hkeys : ∀ key ∈ keys, store.disk.Expired cutoff tree key → store.disk.Due cutoff tree key)
    (hdata : ∀ key ∈ keys, ∀ inner, tree.walk (store.disk.dataPath key) ≠ .ok (.folder inner)) :
    ∃ removed : List Key, removed.Nodup ∧
      (∀ key, key ∈ removed ↔ key ∈ keys ∧ store.disk.Due cutoff tree key) ∧
      ((store.evictAll cutoff keys).run tree).1.1 = removed.length ∧
      ∀ key ∈ removed, Gone key ((store.evictAll cutoff keys).run tree).1.2
        ((store.evictAll cutoff keys).run tree).2 := by
  induction keys generalizing store tree with
  | nil => exact ⟨[], List.nodup_nil, by simp, rfl, by simp⟩
  | cons first keys ih =>
    have hlater (key : Key) (hkey : key ∈ keys) : key ∈ first :: keys :=
      List.mem_cons_of_mem first hkey
    rw [run_evictAll_cons]
    by_cases hexpired : store.disk.Expired cutoff tree first
    · have hdue := hkeys first List.mem_cons_self hexpired
      obtain ⟨half, hrun, hgone, ⟨number, folder, hholds⟩, hothers⟩ :=
        run_evictIfExpired_of_due hdue (hdata first List.mem_cons_self)
      have hlost := (swept_evictIfExpired store cutoff first tree).files
      rw [hrun] at hlost ⊢
      have hkeys' : ∀ key ∈ keys, (store.forget first).disk.Expired cutoff half key →
          (store.forget first).disk.Due cutoff half key := by
        intro key hkey hstill
        apply (hothers key).mpr
        refine ⟨hkeys key (hlater key hkey) (Expired.of_losesAt hlost hstill), ?_⟩
        rintro rfl
        exact hgone.not_expired hstill
      have hdata' : ∀ key ∈ keys, ∀ inner,
          half.walk ((store.forget first).disk.dataPath key) ≠ .ok (.folder inner) := by
        intro key hkey inner hwalk
        exact hdata key (hlater key hkey) inner (hlost.folders.symm.walk hwalk)
      obtain ⟨removed, hnodup, hmem, hcount, hall⟩ := ih hkeys' hdata'
      refine ⟨first :: removed, List.nodup_cons.mpr ⟨?_, hnodup⟩, fun key => ?_, ?_, ?_⟩
      · intro hfirst
        exact hgone.not_expired ((hmem first).mp hfirst).2.expired
      · rw [List.mem_cons, List.mem_cons, hmem key]
        constructor
        · rintro (rfl | ⟨hkey, hother⟩)
          · exact ⟨Or.inl rfl, hdue⟩
          · exact ⟨Or.inr hkey, ((hothers key).mp hother).1⟩
        · rintro ⟨hkey, hother⟩
          by_cases hsame : key = first
          · exact Or.inl hsame
          · exact Or.inr ⟨hkey.resolve_left hsame, (hothers key).mpr ⟨hother, hsame⟩⟩
      · simp only [if_true, List.length_cons, hcount]
      · intro key hkey
        rcases List.mem_cons.mp hkey with rfl | hkey
        · exact hgone.of_swept hholds (swept_evictAll _ cutoff keys half)
        · exact hall key hkey
    · rw [run_evictIfExpired_of_not_expired hexpired]
      obtain ⟨removed, hnodup, hmem, hcount, hall⟩ := ih
        (fun key hkey => hkeys key (hlater key hkey)) (fun key hkey => hdata key (hlater key hkey))
      refine ⟨removed, hnodup, fun key => ?_, ?_, hall⟩
      · rw [hmem key, List.mem_cons]
        constructor
        · rintro ⟨hkey, hdue⟩
          exact ⟨Or.inr hkey, hdue⟩
        · rintro ⟨rfl | hkey, hdue⟩
          · exact absurd hdue.expired hexpired
          · exact ⟨hkey, hdue⟩
      · simpa using hcount

/-! ## What is listed -/

/-- Every sidecar that can be read in the data directory stands in the place of the key that it names.
-/
def WellPlaced (disk : Disk) (tree : Tree) : Prop :=
  ∀ names, tree.list disk.root = .ok names → ∀ name ∈ names, isSidecarName name = true →
    ∀ sidecar, sidecarAt? tree (disk.path name) = some sidecar → name = sidecarName sidecar.key

/-- Where the sidecars are well placed, the keys that a sweep takes are due. -/
theorem due_of_mem_listedKeys {disk : Disk} (hplaced : WellPlaced disk tree)
    (hkey : key ∈ listedKeys disk cutoff tree) : disk.Due cutoff tree key := by
  obtain ⟨sidecars, hsidecars, sidecar, hmem, hbefore, rfl⟩ := mem_listedKeys.mp hkey
  rw [run_list] at hsidecars
  cases hlist : tree.list disk.root with
  | error trouble => simp [hlist] at hsidecars
  | ok names =>
    simp only [hlist] at hsidecars
    obtain rfl := Except.ok.inj hsidecars
    obtain ⟨name, hname, hplace⟩ := List.mem_filterMap.mp hmem
    obtain ⟨hname, hsuffix⟩ := List.mem_filter.mp hname
    obtain rfl := hplaced names hlist name hname hsuffix sidecar hplace
    exact ⟨sidecar, hplace, rfl, hbefore⟩

/-- A sweep takes all keys that are due, unless the path of the data directory is empty. -/
theorem mem_listedKeys_of_due {disk : Disk} (hroot : disk.root ≠ .empty)
    (hdue : disk.Due cutoff tree key) : key ∈ listedKeys disk cutoff tree := by
  obtain ⟨sidecar, hplace, hkey, hbefore⟩ := hdue
  obtain ⟨names, sidecars, -, -, hlist, hmem⟩ := mem_list_of_sidecarAt? hroot hplace
  exact mem_listedKeys.mpr ⟨sidecars, by rw [hlist], sidecar, hmem, hbefore, hkey⟩

/-- Well placed sidecars stay so where files are lost. -/
theorem WellPlaced.of_losesAt {disk : Disk} {permitted : String → Prop} (h : WellPlaced disk tree)
    (hlost : tree.LosesAt disk.root permitted changed) : WellPlaced disk changed := by
  intro names hlist name hname hsuffix sidecar hplace
  obtain ⟨before, hbefore, hmem⟩ := hlost.mem_list hlist hname
  have hempty : name ≠ "" := by
    rintro rfl
    exact absurd hsuffix (by decide)
  obtain ⟨contents, hread, -⟩ := sidecarAt?_eq_some.mp hplace
  have hisName := Tree.isName_of_walk_child hempty (Tree.walk_of_read hread)
  exact h before hbefore name hmem hsuffix sidecar (sidecarAt?_of_losesAt hlost hisName hplace)

/-! ## Sweeps -/

/-- A sweep removes expired keys only, whatever stands in the data directory. -/
theorem swept_sweepExpired (store : Store) (now : Time.Instant) (age : Time.Span) (tree : Tree) :
    Swept (now.earlier age) store ((store.sweepExpired now age).run tree).1.2 tree
      ((store.sweepExpired now age).run tree).2 := by
  cases hcutoff : now.minus? age with
  | none =>
    rw [sweepExpired, hcutoff]
    exact .refl _ store tree
  | some cutoff =>
    rw [run_sweepExpired hcutoff, ← Time.Instant.minus?_eq_some hcutoff]
    exact swept_evictAll store cutoff _ tree

/-- If the instant that lies the age earlier than now cannot be had, no key is due. -/
theorem not_due_of_minus?_eq_none {disk : Disk} {now : Time.Instant} {age : Time.Span}
    (hnow : now.kept = true) (hnanos : now.nanos < Time.secondNanos) (h : now.minus? age = none)
    (tree : Tree) (key : Key) : ¬disk.Due (now.earlier age) tree key := by
  rintro ⟨sidecar, hplace, -, hbefore⟩
  obtain ⟨contents, -, hread⟩ := sidecarAt?_eq_some.mp hplace
  have hkept := Sidecar.kept_of_read hread
  rw [Time.Instant.before_earlier_of_minus?_eq_none hnow hnanos hkept h] at hbefore
  cases hbefore

/-- Where the sidecars are well placed, the names of expired keys are those of keys that are due, unless
the path of the data directory is empty. -/
theorem dueName_of_expiredName {disk : Disk} (hroot : disk.root ≠ .empty)
    (hplaced : WellPlaced disk tree) {name : String} (h : disk.ExpiredName cutoff tree name) :
    disk.DueName cutoff tree name := by
  obtain ⟨key, ⟨sidecar, hplace, hbefore⟩, hname⟩ := h
  obtain ⟨names, -, hlist, hmem, -⟩ := mem_list_of_sidecarAt? hroot hplace
  have hsuffix : isSidecarName (sidecarName key) = true := (isSidecarName_fileName key .sidecar).mpr rfl
  have hsame : fileName key .sidecar = fileName sidecar.key .sidecar :=
    hplaced names hlist (sidecarName key) hmem hsuffix sidecar hplace
  have hstem : key.stem = sidecar.key.stem := (fileName_inj hsame).1
  refine ⟨sidecar.key, ⟨sidecar, ?_, rfl, hbefore⟩, ?_⟩
  · rw [sidecarPath, sidecarName, ← hstem]
    exact hplace
  · rw [PairName, sidecarName, dataName, ← hstem]
    exact hname

/-- A sweep removes nothing if the instant that lies the age earlier than now cannot be had. Of all
files and loaded copies it removes those of expired keys only. If every sidecar stands in the place of
the key that it names, none of the deletions fails and the path of the data directory is not empty, it
removes exactly the keys that are due and counts them, and a second sweep for the same instant removes
nothing. -/
theorem sweep_exact {now : Time.Instant} (hnow : now.kept = true)
    (hnanos : now.nanos < Time.secondNanos) (age : Time.Span) (store : Store) (tree : Tree) :
    let cutoff := now.earlier age
    let swept := (store.sweepExpired now age).run tree
    (now.minus? age = none → swept = ((0, store), tree)) ∧
      Swept cutoff store swept.1.2 tree swept.2 ∧
      (store.disk.root ≠ .empty → WellPlaced store.disk tree →
        (∀ key, store.disk.Due cutoff tree key →
          ∃ existed last, (store.disk.delete key).run tree = (.ok existed, last)) →
        (∃ removed : List Key, removed.Nodup ∧
          (∀ key, key ∈ removed ↔ store.disk.Due cutoff tree key) ∧ swept.1.1 = removed.length) ∧
        (∀ key, store.disk.Due cutoff tree key → Gone key swept.1.2 swept.2) ∧
        (∀ key, ¬store.disk.Due cutoff tree key → swept.1.2.cached? key = store.cached? key) ∧
        tree.LosesAt store.disk.root (store.disk.DueName cutoff tree) swept.2 ∧
        ∀ later span, later.minus? span = now.minus? age →
          ((swept.1.2.sweepExpired later span).run swept.2).1.1 = 0) := by
  intro cutoff swept
  have hnone (h : now.minus? age = none) : swept = ((0, store), tree) := by
    simp only [swept]
    rw [sweepExpired, h]
    rfl
  have hswept : Swept cutoff store swept.1.2 tree swept.2 := swept_sweepExpired store now age tree
  refine ⟨hnone, hswept, fun hroot hplaced hdelete => ?_⟩
  have hlost := hswept.files.mono fun name hname => dueName_of_expiredName hroot hplaced hname
  cases hcutoff : now.minus? age with
  | none =>
    have hdue (key : Key) : ¬store.disk.Due cutoff tree key :=
      not_due_of_minus?_eq_none hnow hnanos hcutoff tree key
    rw [hnone hcutoff] at hlost ⊢
    refine ⟨⟨[], List.nodup_nil, by simp [hdue, cutoff], rfl⟩,
      fun key hkey => absurd hkey (hdue key), fun _ _ => rfl, hlost, fun later span hlater => ?_⟩
    rw [sweepExpired, hlater]
    rfl
  | some instant =>
    obtain rfl : instant = cutoff := Time.Instant.minus?_eq_some hcutoff
    have hrun : swept = _ := run_sweepExpired hcutoff store tree
    have hkeys (key : Key) : key ∈ listedKeys store.disk cutoff tree ↔
        store.disk.Due cutoff tree key :=
      ⟨due_of_mem_listedKeys hplaced, mem_listedKeys_of_due hroot⟩
    have hdata : ∀ key ∈ listedKeys store.disk cutoff tree, ∀ inner,
        tree.walk (store.disk.dataPath key) ≠ .ok (.folder inner) := by
      intro key hkey inner
      obtain ⟨existed, last, hlast⟩ := hdelete key ((hkeys key).mp hkey)
      exact walk_dataPath_of_run_delete hlast inner
    obtain ⟨removed, hnodup, hmem, hcount, hall⟩ :=
      count_evictAll (fun key hkey _ => (hkeys key).mp hkey) hdata
    have hremoved (key : Key) : key ∈ removed ↔ store.disk.Due cutoff tree key := by
      rw [hmem key, hkeys key, and_self]
    rw [← hrun] at hcount hall
    have hgone (key : Key) (hkey : store.disk.Due cutoff tree key) : Gone key swept.1.2 swept.2 :=
      hall key ((hremoved key).mpr hkey)
    refine ⟨⟨removed, hnodup, hremoved, hcount⟩, hgone, fun key hkey => ?_, hlost,
      fun later span hlater => ?_⟩
    · rw [hrun]
      exact cached?_evictAll (fun hlisted => hkey ((hkeys key).mp hlisted)) store cutoff tree
    · -- What could be swept again would be due and is gone.
      have hempty : listedKeys store.disk cutoff swept.2 = [] := by
        apply List.eq_nil_iff_forall_not_mem.mpr
        intro key hkey
        have hstill := due_of_mem_listedKeys (hplaced.of_losesAt hlost) hkey
        have hkeyGone := hgone key (hstill.of_losesAt hlost)
        rw [← hswept.disk] at hstill
        exact hkeyGone.not_expired hstill.expired
      rw [run_sweepExpired hlater, hswept.disk, hempty]
      rfl

/-- A folder with the data and the sidecar of one key, and the sidecar of another. -/
def shelf (first second : Sidecar) : Folder :=
  (((Folder.mk 0 []).put (dataName first.key) (.file [])).put (sidecarName first.key)
    (.file first.render)).put (sidecarName second.key) (.file second.render)

/-- Of two artifacts one has expired, the other was stored after the cutoff. -/
theorem sweep_exact_of_two :
    let first : Sidecar := ⟨⟨"web", "1"⟩, ⟨0, 0⟩, 0, ""⟩
    let second : Sidecar := ⟨⟨"shop", "2"⟩, ⟨100, 0⟩, 0, ""⟩
    let now : Time.Instant := ⟨200, 5⟩
    let age : Time.Span := ⟨150, 0⟩
    let tree : Tree := ⟨#[⟨0, [("data", .folder 1)]⟩, shelf first second], .root⟩
    now.kept = true ∧ now.nanos < Time.secondNanos ∧ bareDisk.root ≠ .empty ∧
      WellPlaced bareDisk tree ∧
      (∀ key, bareDisk.Due (now.earlier age) tree key →
        ∃ existed last, (bareDisk.delete key).run tree = (.ok existed, last)) ∧
      bareDisk.Due (now.earlier age) tree first.key ∧
      ¬bareDisk.Due (now.earlier age) tree second.key ∧
      ∃ count after changed, (bareStore.sweepExpired now age).run tree = ((count, after), changed) ∧
        Gone first.key after changed ∧ ((after.sweepExpired now age).run changed).1.1 = 0 := by
  intro first second now age tree
  have hholds : tree.Holds bareDisk.root 1 (shelf first second) := ⟨rfl, rfl⟩
  have hplace (sidecar : Sidecar) (hshown : sidecar.storedAt.Shown)
      (hnode : (shelf first second).node? (sidecarName sidecar.key) = some (.file sidecar.render)) :
      sidecarAt? tree (bareDisk.sidecarPath sidecar.key) = some sidecar := by
    apply sidecarAt?_eq_some.mpr
    exact ⟨_, (hholds.read_child_eq_ok (isName_fileName sidecar.key .sidecar)).mpr
      ⟨hasRoom_bareDisk sidecar.key .sidecar, hnode⟩, Sidecar.read_render hshown.read?_timestamp⟩
  have hfirst : sidecarAt? tree (bareDisk.sidecarPath first.key) = some first := by
    have hname : sidecarName first.key ≠ sidecarName second.key := by decide +kernel
    apply hplace first ⟨by decide, Or.inl (by decide)⟩
    rw [shelf, Folder.node?_put, if_neg hname, Folder.node?_put, if_pos rfl]
  have hsecond : sidecarAt? tree (bareDisk.sidecarPath second.key) = some second := by
    apply hplace second ⟨by decide, Or.inl (by decide)⟩
    rw [shelf, Folder.node?_put, if_pos rfl]
  have hplaced : WellPlaced bareDisk tree := by
    intro names hlist name hname hsuffix sidecar hfound
    rw [hholds.of_list hlist, Folder.mem_names, shelf, Folder.node?_put, Folder.node?_put,
      Folder.node?_put] at hname
    split_ifs at hname with hother hthis hdata
    · subst hother
      rw [← Option.some.inj (hsecond.symm.trans hfound)]
    · subst hthis
      rw [← Option.some.inj (hfirst.symm.trans hfound)]
    · subst hdata
      cases (isSidecarName_fileName first.key .data).mp hsuffix
    · exact absurd rfl hname
  have hdelete (key : Key) (hdue : bareDisk.Due (now.earlier age) tree key) :
      ∃ existed last, (bareDisk.delete key).run tree = (.ok existed, last) := by
    have hfile (inner : ℕ) : tree.walk (bareDisk.dataPath key) ≠ .ok (.folder inner) := by
      intro hwalk
      have hfree : Free (shelf first second) key := (((free_nil 0 key).put _ _).put _ _).put _ _
      exact hfree .data inner ((hholds.walk_child_eq_ok (isName_fileName key .data)).mp hwalk).2
    obtain ⟨last, hlast⟩ := run_delete_of_expired hdue.expired hfile
    exact ⟨true, last, hlast⟩
  have hdue : bareDisk.Due (now.earlier age) tree first.key := ⟨first, hfirst, rfl, by decide⟩
  have hfresh : ¬bareDisk.Due (now.earlier age) tree second.key := by
    rintro ⟨sidecar, hfound, -, hbefore⟩
    rw [← Option.some.inj (hsecond.symm.trans hfound)] at hbefore
    exact absurd hbefore (by decide)
  have hnow : now.kept = true := by decide
  have hnanos : now.nanos < Time.secondNanos := by decide
  have hroot : bareDisk.root ≠ .empty := by decide
  obtain ⟨-, -, hexact⟩ := sweep_exact hnow hnanos age bareStore tree
  obtain ⟨-, hgone, -, -, hagain⟩ := hexact hroot hplaced hdelete
  have hfirstGone := hgone first.key hdue
  have hnothing := hagain now age rfl
  rcases hrun : (bareStore.sweepExpired now age).run tree with ⟨⟨count, after⟩, changed⟩
  simp only [hrun] at hfirstGone hnothing
  exact ⟨hnow, hnanos, hroot, hplaced, hdelete, hdue, hfresh, count, after, changed, rfl, hfirstGone,
    hnothing⟩

/-- Below an empty path nothing can be listed, so a sweep leaves a key that is due and that could be
deleted. -/
theorem due_left_below_empty_path :
    let key : Key := ⟨"web", "1"⟩
    let disk : Disk := ⟨.empty⟩
    let store : Store := ⟨disk, .crossLine, [], {}⟩
    let sidecar : Sidecar := ⟨key, ⟨0, 0⟩, 0, ""⟩
    let now : Time.Instant := ⟨200, 5⟩
    let age : Time.Span := ⟨150, 0⟩
    let folder := (Folder.mk 0 []).put (sidecarName key) (.file sidecar.render)
    let tree : Tree := ⟨#[folder], .root⟩
    disk.Due (now.earlier age) tree key ∧ WellPlaced disk tree ∧
      (∃ last, (disk.delete key).run tree = (.ok true, last)) ∧
      (store.sweepExpired now age).run tree = ((0, store), tree) := by
  intro key disk store sidecar now age folder tree
  have hholds : tree.Holds disk.root 0 folder := ⟨rfl, rfl⟩
  have hroom : disk.HasRoom key := hasRoom_of_size (by decide) (by decide) key
  have hshown : sidecar.storedAt.Shown := ⟨by decide, Or.inl (by decide)⟩
  have hdue : disk.Due (now.earlier age) tree key := by
    refine ⟨sidecar, sidecarAt?_eq_some.mpr ⟨sidecar.render, ?_,
      Sidecar.read_render hshown.read?_timestamp⟩, rfl, by decide⟩
    apply (hholds.read_child_eq_ok (isName_fileName key .sidecar)).mpr
    exact ⟨hroom .sidecar, (Folder.node?_put _ _ _ _).trans (if_pos rfl)⟩
  have hlist : tree.list disk.root = .error .missing := rfl
  refine ⟨hdue, fun names hnames => ?_, ?_, ?_⟩
  · rw [hlist] at hnames
    cases hnames
  · apply run_delete_of_expired hdue.expired
    intro inner hwalk
    have hfree : Free folder key := (free_nil 0 key).put _ _
    exact hfree .data inner ((hholds.walk_child_eq_ok (isName_fileName key .data)).mp hwalk).2
  · have hcutoff : now.minus? age = some ⟨50, 5⟩ := by decide
    rw [run_sweepExpired hcutoff, listedKeys, run_list, hlist]
    rfl

end Store

end OriginMap
