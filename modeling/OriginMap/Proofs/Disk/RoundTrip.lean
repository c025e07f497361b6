import OriginMap.Proofs.Disk.Room

/-!
# What was written is read back

Whatever the files were before, once data and a sidecar were written under a key, they are what is read
of the key, the sidecar is listed, and no draft is left. Of the sidecar only its instant matters: it has
to be one that can be told from its timestamp. And the data directory has to have a path that can be
listed, which the empty text is not, although files can be written below it.
-/

namespace OriginMap.Disk

open Files

variable {disk : Disk} {tree : Tree} {number : ℕ} {folder : Folder} {key : Key} {sidecar : Sidecar}

/-- A sidecar that was written is read back with the instant of its timestamp. -/
theorem run_readSidecar_of_run_write {data : Bytes} {after : Tree} {t : Time.Instant}
    (ht : Time.Timestamp.read? sidecar.storedAt.timestamp = some t)
    (hrun : (disk.write key data sidecar).run tree = (.ok (), after)) :
    (disk.readSidecar key).run after = (.ok (some { sidecar with storedAt := t }), after) := by
  obtain ⟨hroom, number, folder, hholds⟩ := stored_of_run_write hrun
  exact run_readSidecar_some hroom hholds (node?_stored folder key data sidecar .sidecar)
    (Sidecar.read_render ht)

/-- The empty path cannot be listed. -/
theorem run_list_of_empty (hroot : disk.root = .empty) (tree : Tree) :
    disk.list.run tree = (.error (.io .empty .missing), tree) := by
  have hlist : tree.list .empty = .error .missing := by
    rw [Tree.list, Tree.folderAt, Tree.walk, if_pos rfl]
    rfl
  rw [run_list, hroot, hlist]

/-- Data and a sidecar that were written under a key, be it a valid one or not, are read back if the
instant of the sidecar can be told from its timestamp: the sidecar whatever the data is, and both if the
sidecar has the digest of the data. The sidecar is listed, unless the path of the data directory is
empty, and neither draft is left. -/
theorem read_back_of_write {data : Bytes} {after : Tree} (hshown : sidecar.storedAt.Shown)
    (hrun : (disk.write key data sidecar).run tree = (.ok (), after)) :
    (disk.readSidecar key).run after = (.ok (some sidecar), after) ∧
      (disk.read key).run after = (.ok (if Sha256.hexDigest data = sidecar.sha256 then
        some (sidecar, data) else none), after) ∧
      (disk.root ≠ .empty → ∃ names sidecars, after.list disk.root = .ok names ∧
        sidecarName key ∈ names ∧ disk.list.run after = (.ok sidecars, after) ∧
        sidecar ∈ sidecars) ∧
      after.walk (disk.path (dataName key ++ draftSuffix)) = .error .missing ∧
      after.walk (disk.path (sidecarName key ++ draftSuffix)) = .error .missing := by
  obtain ⟨hroom, number, folder, hholds⟩ := stored_of_run_write hrun
  have hnode := node?_stored folder key data sidecar
  have hread : Sidecar.read sidecar.render = .ok sidecar :=
    Sidecar.read_render hshown.read?_timestamp
  have hgone (kind : FileKind)
      (hkind : (stored folder key data sidecar).node? (fileName key kind) = none) :
      after.walk (disk.path (fileName key kind)) = .error .missing :=
    (hholds.walk_child_eq_missing (isName_fileName key kind)).mpr ⟨hroom kind, hkind⟩
  have hplace : sidecarAt? after (disk.sidecarPath key) = some sidecar := by
    apply sidecarAt?_eq_some.mpr
    exact ⟨_, (hholds.read_child_eq_ok (isName_fileName key .sidecar)).mpr
      ⟨hroom .sidecar, hnode .sidecar⟩, hread⟩
  rw [dataName_append, sidecarName_append]
  exact ⟨run_readSidecar_some hroom hholds (hnode .sidecar) hread,
    run_read_present hroom hholds (hnode .sidecar) hread (hnode .data),
    fun hroot => mem_list_of_sidecarAt? hroot hplace,
    hgone .dataDraft (hnode .dataDraft), hgone .sidecarDraft (hnode .sidecarDraft)⟩

/-- A key that is none, with an empty application and a line break, and a sidecar of the greatest size
and of a leap second in the year 10000. -/
theorem read_back_in_long_year :
    let key : Key := ⟨"", "\"1\\\n\x01"⟩
    let sidecar : Sidecar :=
      ⟨⟨"é\"", "\\\x1f"⟩, ⟨253402300859, 1999999999⟩, 18446744073709551615, Sha256.hexDigest [1]⟩
    sidecar.storedAt.Shown ∧ ∃ after,
      (bareDisk.write key [1] sidecar).run bareTree = (.ok (), after) ∧
        (bareDisk.readSidecar key).run after = (.ok (some sidecar), after) ∧
        (bareDisk.read key).run after = (.ok (some (sidecar, [1])), after) ∧
        ∃ sidecars, bareDisk.list.run after = (.ok sidecars, after) ∧ sidecar ∈ sidecars := by
  intro key sidecar
  have hshown : sidecar.storedAt.Shown := ⟨by decide, Or.inr (by decide)⟩
  obtain ⟨after, hrun, -⟩ := run_write_ok (hasRoom_bareDisk key) folderAt_bareTree (free_nil 0 key)
    [1] sidecar
  obtain ⟨hsidecar, hread, hlist, -, -⟩ := read_back_of_write hshown hrun
  obtain ⟨-, sidecars, -, -, hlisted, hmem⟩ := hlist (by decide)
  rw [if_pos rfl] at hread
  exact ⟨hshown, after, hrun, hsidecar, hread, sidecars, hlisted, hmem⟩

/-- Below an empty path a sidecar is written and cannot be listed; a leap second that is not at the end
of a minute is read back as another instant. -/
theorem not_listed_below_empty_path :
    let key : Key := ⟨"web", "1"⟩
    let disk : Disk := ⟨.empty⟩
    let sidecar : Sidecar := ⟨key, ⟨0, 0⟩, 0, ""⟩
    let leap : Sidecar := ⟨key, ⟨0, 1500000000⟩, 0, ""⟩
    (∃ after, (disk.write key [] sidecar).run (.ofFiles []) = (.ok (), after) ∧
        (disk.readSidecar key).run after = (.ok (some sidecar), after) ∧
        disk.list.run after = (.error (.io .empty .missing), after)) ∧
      ∃ after, (bareDisk.write key [] leap).run bareTree = (.ok (), after) ∧
        (bareDisk.readSidecar key).run after =
          (.ok (some { leap with storedAt := ⟨1, 500000000⟩ }), after) := by
  intro key disk sidecar leap
  have hresult : ((disk.write key [] sidecar).run (.ofFiles [])).1 = .ok () := by decide +kernel
  rcases hrun : (disk.write key [] sidecar).run (.ofFiles []) with ⟨result, after⟩
  rw [hrun] at hresult
  obtain rfl : result = .ok () := hresult
  have hshown : sidecar.storedAt.Shown := ⟨by decide, Or.inl (by decide)⟩
  obtain ⟨leapt, hleapt, -⟩ := run_write_ok (hasRoom_bareDisk key) folderAt_bareTree
    (free_nil 0 key) [] leap
  have hnamed : leap.storedAt.named = ⟨1, 500000000⟩ := by decide
  have hread := Time.Instant.read?_timestamp (t := leap.storedAt) (by decide) (by decide)
  rw [hnamed] at hread
  exact ⟨⟨after, rfl, run_readSidecar_of_run_write hshown.read?_timestamp hrun,
      run_list_of_empty rfl after⟩,
    leapt, hleapt, run_readSidecar_of_run_write hread hleapt⟩

end OriginMap.Disk
