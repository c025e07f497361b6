import OriginMap.Proofs.Archive
import OriginMap.Proofs.Container
import OriginMap.Proofs.Disk.Room

/-!
# Archives in folders

An archive is filed in a folder that has a sidecar and the data of each of its records and nothing
else. Storing files one more record, deleting takes one out, and as long as the keys have different
stems the other records stay as they are. What is listed are then the sidecars of the records.
-/

namespace OriginMap

open Files Disk

/-- What is kept beside the data of a record. -/
def Record.sidecar (r : Record) : Sidecar :=
  ⟨r.key, r.storedAt, UInt64.ofNat r.data.length, Sha256.hexDigest r.data⟩

/-- What the names of a record's files stand for. -/
def Record.node? (r : Record) : FileKind → Option Node
  | .data => some (.file r.data)
  | .sidecar => some (.file r.sidecar.render)
  | .dataDraft | .sidecarDraft => none

/-- A folder that has the files of an archive and no others. -/
structure Archive.FiledIn (a : Archive) (folder : Folder) : Prop where
  /-- No name stands twice in it. -/
  names : (folder.nodes.map Prod.fst).Nodup
  /-- Each of its names is that of a record's file. -/
  owned : ∀ name, folder.node? name ≠ none → ∃ r ∈ a.records, ∃ kind, name = fileName r.key kind
  /-- The files are those of the records. -/
  files : ∀ r ∈ a.records, ∀ kind, folder.node? (fileName r.key kind) = r.node? kind

/-! ## Names -/

/-- Names stay different when one is erased. -/
theorem Files.Folder.names_erase {folder : Folder} (h : (folder.nodes.map Prod.fst).Nodup)
    (name : String) : ((folder.erase name).nodes.map Prod.fst).Nodup :=
  h.sublist (List.filter_sublist.map Prod.fst)

/-- Names stay different when one is given to something. -/
theorem Files.Folder.names_put {folder : Folder} (h : (folder.nodes.map Prod.fst).Nodup)
    (name : String) (node : Node) : ((folder.put name node).nodes.map Prod.fst).Nodup := by
  have hgone : name ∉ (folder.erase name).nodes.map Prod.fst := by
    rw [Folder.mem_names, Folder.node?_erase, if_pos rfl]
    exact fun h => h rfl
  rw [Folder.put, List.map_append, List.map_singleton, ← List.concat_eq_append]
  exact (Folder.names_erase h name).concat hgone

/-- Names stay different when a file is replaced. -/
theorem Disk.names_replaced {folder : Folder} (h : (folder.nodes.map Prod.fst).Nodup)
    (name : String) (contents : Bytes) :
    ((replaced folder name contents).nodes.map Prod.fst).Nodup :=
  Folder.names_put (Folder.names_erase (Folder.names_put h _ _) _) _ _

namespace Archive

/-- An empty folder has the files of the archive without records. -/
theorem filedIn_empty (above : ℕ) : empty.FiledIn ⟨above, []⟩ :=
  ⟨List.nodup_nil, fun _ h => absurd rfl h, fun _ hr => absurd hr List.not_mem_nil⟩

variable {a : Archive} {folder : Folder} {keys : Set Key} {key : Key} {r : Record}

/-- There are no files of keys without a record. -/
theorem FiledIn.node?_eq_none (h : a.FiledIn folder) (hkeys : Set.InjOn Key.stem keys)
    (hknown : ∀ r ∈ a.records, r.key ∈ keys) (hkey : key ∈ keys) (hnone : a.find? key = none)
    (kind : FileKind) : folder.node? (fileName key kind) = none := by
  by_contra hnode
  obtain ⟨r, hr, kind', hname⟩ := h.owned _ hnode
  have hsame : key = r.key := hkeys hkey (hknown r hr) (fileName_inj hname).1
  exact find?_eq_none.mp hnone r hr hsame.symm

/-- There is a sidecar exactly for the keys of records. -/
theorem FiledIn.isSome_sidecar (h : a.FiledIn folder) (hkeys : Set.InjOn Key.stem keys)
    (hknown : ∀ r ∈ a.records, r.key ∈ keys) (hkey : key ∈ keys) :
    (folder.node? (sidecarName key)).isSome = (a.find? key).isSome := by
  cases hfind : a.find? key with
  | none =>
    have hnode : folder.node? (sidecarName key) = none :=
      h.node?_eq_none hkeys hknown hkey hfind .sidecar
    rw [hnode]
    rfl
  | some r =>
    obtain ⟨hr, rfl⟩ := find?_eq_some.mp hfind
    have hnode : folder.node? (sidecarName r.key) = r.node? .sidecar := h.files r hr .sidecar
    rw [hnode]
    rfl

/-- No folder stands in the place of a key's file. -/
theorem FiledIn.free (h : a.FiledIn folder) (key : Key) : Free folder key := by
  intro kind inner hnode
  have hpresent : folder.node? (fileName key kind) ≠ none := by simp [hnode]
  obtain ⟨r, hr, kind', hname⟩ := h.owned _ hpresent
  rw [hname, h.files r hr kind'] at hnode
  cases kind' <;> cases hnode

/-- After a record was stored the folder has its files as well. -/
theorem FiledIn.stored (h : a.FiledIn folder) (hkeys : Set.InjOn Key.stem keys)
    (hknown : ∀ r ∈ a.records, r.key ∈ keys) (hkey : r.key ∈ keys) :
    (a.put r).FiledIn (stored folder r.key r.data r.sidecar) := by
  have hsame := sameBut_stored folder r.key r.data r.sidecar
  constructor
  · exact names_replaced (names_replaced (Folder.names_erase h.names _) _ _) _ _
  · intro name hname
    by_cases hown : ∃ kind, name = fileName r.key kind
    · exact ⟨r, mem_put.mpr (Or.inl rfl), hown⟩
    · rw [hsame name fun kind hkind => hown ⟨kind, hkind⟩] at hname
      obtain ⟨other, hother, kind, rfl⟩ := h.owned name hname
      have hne : other.key ≠ r.key := fun hne => hown ⟨kind, by rw [hne]⟩
      exact ⟨other, mem_put.mpr (Or.inr ⟨hother, hne⟩), kind, rfl⟩
  · intro other hother kind
    rcases mem_put.mp hother with rfl | ⟨hother, hne⟩
    · rw [node?_stored]
      cases kind <;> rfl
    · have hstem : other.key.stem ≠ r.key.stem := fun hstem =>
        hne (hkeys (hknown other hother) hkey hstem)
      rw [hsame _ fun kind' => fileName_ne_of_stem_ne hstem kind kind', h.files other hother kind]

/-- After a key was deleted the folder has no files of it any more. -/
theorem FiledIn.deleted (h : a.FiledIn folder) (hkeys : Set.InjOn Key.stem keys)
    (hknown : ∀ r ∈ a.records, r.key ∈ keys) (hkey : key ∈ keys) :
    (a.erase key).FiledIn (deleted folder key) := by
  have hsame := sameBut_deleted folder key
  have hnone (kind : FileKind) : (Disk.deleted folder key).node? (fileName key kind) = none := by
    have hdraft (hkind : ∀ r : Record, r.node? kind = none) :
        folder.node? (fileName key kind) = none := by
      cases hfind : a.find? key with
      | none => exact h.node?_eq_none hkeys hknown hkey hfind kind
      | some r =>
        obtain ⟨hr, rfl⟩ := find?_eq_some.mp hfind
        rw [h.files r hr kind, hkind r]
    rw [Disk.deleted, Folder.node?_erase, Folder.node?_erase]
    cases kind with
    | data => exact if_pos rfl
    | sidecar => simp [sidecarName, fileName, FileKind.suffix]
    | dataDraft => simp [hdraft fun _ => rfl]
    | sidecarDraft => simp [hdraft fun _ => rfl]
  constructor
  · exact Folder.names_erase (Folder.names_erase h.names _) _
  · intro name hname
    have hother (kind : FileKind) : name ≠ fileName key kind := by
      rintro rfl
      exact hname (hnone kind)
    rw [hsame name hother] at hname
    obtain ⟨r, hr, kind, rfl⟩ := h.owned name hname
    have hne : r.key ≠ key := fun hne => hother kind (by rw [hne])
    exact ⟨r, mem_erase.mpr ⟨hr, hne⟩, kind, rfl⟩
  · intro r hr kind
    obtain ⟨hr, hne⟩ := mem_erase.mp hr
    have hstem : r.key.stem ≠ key.stem := fun hstem => hne (hkeys (hknown r hr) hkey hstem)
    rw [hsame _ fun kind' => fileName_ne_of_stem_ne hstem kind kind', h.files r hr kind]

/-! ## On disk -/

/-- A data directory keeps an archive of some keys whose timestamps can be read back. -/
structure KeptOn (a : Archive) (keys : Set Key) (disk : Disk) (tree : Tree) : Prop where
  /-- The archive is filed in the data directory. -/
  filed : ∃ folder, tree.folderAt disk.root = .ok folder ∧ a.FiledIn folder
  /-- The keys of the records are among the given ones. -/
  known : ∀ r ∈ a.records, r.key ∈ keys
  /-- The timestamps of the records are read back. -/
  readable : ∀ r ∈ a.records, Time.Timestamp.read? r.storedAt.timestamp = some r.storedAt

variable {disk : Disk} {tree : Tree}

/-- An empty data directory keeps the archive without records. -/
theorem keptOn_empty {above : ℕ} (hempty : tree.folderAt disk.root = .ok ⟨above, []⟩) :
    empty.KeptOn keys disk tree :=
  ⟨⟨_, hempty, filedIn_empty above⟩, fun _ hr => absurd hr List.not_mem_nil,
    fun _ hr => absurd hr List.not_mem_nil⟩

/-- The sidecar of a record is read back. -/
theorem KeptOn.read_render (h : a.KeptOn keys disk tree) (hr : r ∈ a.records) :
    Sidecar.read r.sidecar.render = .ok r.sidecar :=
  Sidecar.read_render (h.readable r hr)

/-- The sidecar of a key is read exactly if there is a record of it. -/
theorem KeptOn.run_readSidecar (h : a.KeptOn keys disk tree) (hkeys : Set.InjOn Key.stem keys)
    (hroom : disk.HasRoom key) (hkey : key ∈ keys) :
    (disk.readSidecar key).run tree = (.ok ((a.find? key).map Record.sidecar), tree) := by
  obtain ⟨folder, hroot, hfiled⟩ := h.filed
  obtain ⟨number, -, hholds⟩ := Tree.Holds.of_folderAt hroot
  cases hfind : a.find? key with
  | none =>
    exact run_readSidecar_none hroom hholds
      (hfiled.node?_eq_none hkeys h.known hkey hfind .sidecar)
  | some r =>
    obtain ⟨hr, rfl⟩ := find?_eq_some.mp hfind
    exact run_readSidecar_some hroom hholds (hfiled.files r hr .sidecar) (h.read_render hr)

/-- A key is read exactly if there is a record of it. -/
theorem KeptOn.run_read (h : a.KeptOn keys disk tree) (hkeys : Set.InjOn Key.stem keys)
    (hroom : disk.HasRoom key) (hkey : key ∈ keys) :
    (disk.read key).run tree = (.ok ((a.find? key).map fun r => (r.sidecar, r.data)), tree) := by
  obtain ⟨folder, hroot, hfiled⟩ := h.filed
  obtain ⟨number, -, hholds⟩ := Tree.Holds.of_folderAt hroot
  cases hfind : a.find? key with
  | none =>
    exact run_read_none hroom hholds (hfiled.node?_eq_none hkeys h.known hkey hfind .sidecar)
  | some r =>
    obtain ⟨hr, rfl⟩ := find?_eq_some.mp hfind
    exact run_read_some hroom hholds (hfiled.files r hr .sidecar) (h.read_render hr)
      (hfiled.files r hr .data) rfl

/-- The sidecars that are listed are those of the records. -/
theorem KeptOn.run_list (h : a.KeptOn keys disk tree) (hkeys : Set.InjOn Key.stem keys)
    (hroom : ∀ key ∈ keys, disk.HasRoom key) :
    ∃ sidecars, disk.list.run tree = (.ok sidecars, tree) ∧
      sidecars.Perm (a.records.map Record.sidecar) := by
  obtain ⟨folder, hroot, hfiled⟩ := h.filed
  obtain ⟨number, -, hholds⟩ := Tree.Holds.of_folderAt hroot
  have hlist : tree.list disk.root = .ok (folder.nodes.map Prod.fst) := by
    rw [Tree.list, hroot]
    rfl
  have hdistinct : (a.records.map fun r => sidecarName r.key).Nodup := by
    have hnames : ((a.records.map Record.key).map sidecarName).Nodup := by
      refine a.distinct.map_on fun key hkey key' hkey' hname => ?_
      obtain ⟨r, hr, rfl⟩ := List.mem_map.mp hkey
      obtain ⟨r', hr', rfl⟩ := List.mem_map.mp hkey'
      have hsame : fileName r.key .sidecar = fileName r'.key .sidecar := hname
      exact hkeys (h.known r hr) (h.known r' hr') (fileName_inj hsame).1
    rwa [List.map_map] at hnames
  have hnames : ((folder.nodes.map Prod.fst).filter isSidecarName).Perm
      (a.records.map fun r => sidecarName r.key) := by
    rw [List.perm_ext_iff_of_nodup (hfiled.names.filter _) hdistinct]
    intro name
    rw [List.mem_filter, Folder.mem_names, List.mem_map]
    constructor
    · rintro ⟨hname, hsuffix⟩
      obtain ⟨r, hr, kind, rfl⟩ := hfiled.owned name hname
      obtain rfl := (isSidecarName_fileName r.key kind).mp hsuffix
      exact ⟨r, hr, rfl⟩
    · rintro ⟨r, hr, rfl⟩
      have hnode : folder.node? (sidecarName r.key) = some (.file r.sidecar.render) :=
        hfiled.files r hr .sidecar
      exact ⟨by simp [hnode], (isSidecarName_fileName r.key .sidecar).mpr rfl⟩
  have hsidecar : ∀ r ∈ a.records,
      sidecarAt? tree (disk.path (sidecarName r.key)) = some r.sidecar := by
    intro r hr
    have hread : tree.read (disk.path (sidecarName r.key)) = .ok r.sidecar.render :=
      (hholds.read_child_eq_ok (isName_fileName r.key .sidecar)).mpr
        ⟨hroom r.key (h.known r hr) .sidecar, hfiled.files r hr .sidecar⟩
    rw [sidecarAt?, hread]
    simp only [h.read_render hr, Except.toOption]
  refine ⟨_, by rw [Disk.run_list, hlist], ?_⟩
  refine (hnames.filterMap _).trans (List.Perm.of_eq ?_)
  rw [List.filterMap_map, ← List.filterMap_eq_map]
  exact List.filterMap_congr fun r hr => hsidecar r hr

/-- Storing a record puts it into the archive. -/
theorem KeptOn.run_write (h : a.KeptOn keys disk tree) (hkeys : Set.InjOn Key.stem keys)
    (hroom : disk.HasRoom r.key) (hkey : r.key ∈ keys)
    (hreadable : Time.Timestamp.read? r.storedAt.timestamp = some r.storedAt) :
    ∃ after, (disk.write r.key r.data r.sidecar).run tree = (.ok (), after) ∧
      (a.put r).KeptOn keys disk after := by
  obtain ⟨folder, hroot, hfiled⟩ := h.filed
  obtain ⟨after, hrun, hafter⟩ :=
    run_write_ok hroom hroot (hfiled.free r.key) r.data r.sidecar
  refine ⟨after, hrun, ⟨_, hafter, hfiled.stored hkeys h.known hkey⟩, ?_, ?_⟩
  · intro other hother
    rcases mem_put.mp hother with rfl | ⟨hother, -⟩
    · exact hkey
    · exact h.known other hother
  · intro other hother
    rcases mem_put.mp hother with rfl | ⟨hother, -⟩
    · exact hreadable
    · exact h.readable other hother

/-- Deleting a key takes its record out of the archive and says whether there was one. -/
theorem KeptOn.run_delete (h : a.KeptOn keys disk tree) (hkeys : Set.InjOn Key.stem keys)
    (hroom : disk.HasRoom key) (hkey : key ∈ keys) :
    ∃ after, (disk.delete key).run tree = (.ok (a.find? key).isSome, after) ∧
      (a.erase key).KeptOn keys disk after := by
  obtain ⟨folder, hroot, hfiled⟩ := h.filed
  obtain ⟨after, hrun, hafter⟩ := run_delete_ok hroom hroot (hfiled.free key)
  rw [hfiled.isSome_sidecar hkeys h.known hkey] at hrun
  exact ⟨after, hrun, ⟨_, hafter, hfiled.deleted hkeys h.known hkey⟩,
    fun r hr => h.known r (mem_erase.mp hr).1, fun r hr => h.readable r (mem_erase.mp hr).1⟩

end Archive

end OriginMap
