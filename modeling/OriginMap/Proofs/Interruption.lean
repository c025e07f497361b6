import Mathlib.Data.Set.Function
import OriginMap.Proofs.Disk
import OriginMap.Proofs.Sidecar

/-!
# Calls that are cut off

The data directory is changed by storing and deleting, and each such call may be cut off anywhere, with
later calls going on from what was left behind. Wherever a sidecar stands in the directory, it and the
data beside it are still those of a single call. The invariant is about one folder: a call either leaves
the sidecar of its key alone together with the data, or takes it away, or puts both in place.
-/

namespace OriginMap.Disk

open Files

/-- A call that changes the data directory. -/
inductive Call where
  /-- Data and a sidecar are stored under a key. -/
  | write (key : Key) (data : Bytes) (sidecar : Sidecar)
  /-- The data and the sidecar of a key are deleted. -/
  | delete (key : Key)

/-- The key that a call is about. -/
def Call.key : Call → Key
  | write key _ _ => key
  | delete key => key

/-- What a call may leave behind when it is cut off. -/
def Call.Leaves (disk : Disk) : Call → Tree → Tree → Prop
  | write key data sidecar => (disk.write key data sidecar).Leaves
  | delete key => (disk.delete key).Leaves

/-- The trees that are met while some calls are made, each of which may have been cut off. -/
inductive Reaches (disk : Disk) (tree : Tree) : List Call → Tree → Prop
  /-- No call was made. -/
  | start : Reaches disk tree [] tree
  /-- One more call is made on what was left behind. -/
  | call {calls : List Call} {call : Call} {middle after : Tree} (h : Reaches disk tree calls middle)
      (hcut : call.Leaves disk middle after) : Reaches disk tree (calls ++ [call]) after

/-- Every file of a folder belongs to one of some keys, and every sidecar and the data beside it are those
of one of some calls. -/
structure Complete (keys : Set Key) (calls : List Call) (folder : Folder) : Prop where
  /-- Every name is that of a file of a key. -/
  owned : ∀ name, folder.node? name ≠ none → ∃ key ∈ keys, ∃ kind, name = fileName key kind
  /-- A sidecar and its data are of one call. -/
  paired : ∀ key ∈ keys, ∀ node, folder.node? (sidecarName key) = some node →
    ∃ data sidecar, Call.write key data sidecar ∈ calls ∧ node = .file sidecar.render ∧
      folder.node? (dataName key) = some (.file data)

variable {disk : Disk} {keys : Set Key} {calls : List Call} {tree after : Tree}

/-- A call leaves the folder as it was, or without a sidecar of its key, or with all that it stores. -/
theorem Call.Leaves.folder {call : Call} {number : ℕ} {folder : Folder}
    (h : tree.Holds disk.root number folder) (hcut : call.Leaves disk tree after) :
    ∃ other, after.Holds disk.root number other ∧ SameBut call.key folder other ∧
      (other = folder ∨ other.node? (sidecarName call.key) = none ∨
        ∃ data sidecar, call = .write call.key data sidecar ∧
          other = stored folder call.key data sidecar) := by
  cases call with
  | write key data sidecar =>
    obtain ⟨other, hother, hsame, hcases⟩ := leaves_write h hcut
    refine ⟨other, hother, hsame, ?_⟩
    rcases hcases with hcases | hcases | hcases
    · exact Or.inl hcases
    · exact Or.inr (Or.inl hcases)
    · exact Or.inr (Or.inr ⟨data, sidecar, rfl, hcases⟩)
  | delete key =>
    obtain ⟨other, hother, hsame, hcases⟩ := leaves_delete h hcut
    refine ⟨other, hother, hsame, ?_⟩
    rcases hcases with hcases | hcases
    · exact Or.inl hcases
    · exact Or.inr (Or.inl hcases)

/-- A call that may be cut off keeps a folder complete. -/
theorem Complete.call {call : Call} {folder other : Folder} (hkeys : Set.InjOn Key.stem keys)
    (h : Complete keys calls folder) (hkey : call.key ∈ keys) (hsame : SameBut call.key folder other)
    (hcases : other = folder ∨ other.node? (sidecarName call.key) = none ∨
      ∃ data sidecar, call = .write call.key data sidecar ∧
        other = stored folder call.key data sidecar) :
    Complete keys (calls ++ [call]) other := by
  constructor
  · intro name hname
    by_cases hown : ∃ kind, name = fileName call.key kind
    · exact ⟨call.key, hkey, hown⟩
    · have hunchanged := hsame name fun kind hkind => hown ⟨kind, hkind⟩
      rw [hunchanged] at hname
      exact h.owned name hname
  · intro key hmem node hnode
    by_cases hsameKey : key = call.key
    · subst hsameKey
      rcases hcases with rfl | hnone | ⟨data, sidecar, hcall, rfl⟩
      · obtain ⟨data, sidecar, hwrite, hpair⟩ := h.paired _ hmem node hnode
        exact ⟨data, sidecar, List.mem_append_left _ hwrite, hpair⟩
      · rw [hnone] at hnode
        cases hnode
      · have hsidecar := node?_stored folder call.key data sidecar .sidecar
        refine ⟨data, sidecar, ?_, ?_, node?_stored folder call.key data sidecar .data⟩
        · rw [← hcall]
          exact List.mem_append_right _ List.mem_cons_self
        · exact Option.some.inj (hnode.symm.trans hsidecar)
    · have hstem : key.stem ≠ call.key.stem := fun hstem => hsameKey (hkeys hmem hkey hstem)
      have hapart := fileName_ne_of_stem_ne hstem
      rw [hsame (sidecarName key) (hapart .sidecar)] at hnode
      obtain ⟨data, sidecar, hwrite, hrender, hdata⟩ := h.paired key hmem node hnode
      refine ⟨data, sidecar, List.mem_append_left _ hwrite, hrender, ?_⟩
      rw [hsame (dataName key) (hapart .data), hdata]

/-- However calls are cut off, the folder stays complete. -/
theorem Reaches.complete (hkeys : Set.InjOn Key.stem keys) {number above : ℕ}
    (hstart : tree.Holds disk.root number ⟨above, []⟩) (h : disk.Reaches tree calls after)
    (hcalls : ∀ call ∈ calls, call.key ∈ keys) :
    ∃ folder, after.Holds disk.root number folder ∧ Complete keys calls folder := by
  induction h with
  | start => exact ⟨_, hstart, ⟨fun name hname => absurd rfl hname, fun key hmem node hnode => by cases hnode⟩⟩
  | call h hcut ih =>
    obtain ⟨folder, hfolder, hcomplete⟩ :=
      ih fun call hcall => hcalls call (List.mem_append_left _ hcall)
    obtain ⟨other, hother, hsame, hcases⟩ := hcut.folder hfolder
    have hkey := hcalls _ (List.mem_append_right _ List.mem_cons_self)
    exact ⟨other, hother, hcomplete.call hkeys hkey hsame hcases⟩

section Complete

variable {number : ℕ} {folder : Folder}

/-- In a complete folder a sidecar that can be read is of a call whose data can be read beside it. -/
theorem Complete.of_read (h : Complete keys calls folder) (hfolder : tree.Holds disk.root number folder)
    {key : Key} (hkey : key ∈ keys) {contents : Bytes}
    (hread : tree.read (disk.sidecarPath key) = .ok contents) :
    ∃ data sidecar, Call.write key data sidecar ∈ calls ∧ contents = sidecar.render ∧
      tree.read (disk.dataPath key) = .ok data := by
  obtain ⟨hdataName, -, hsidecarName, -⟩ := isName_names key
  obtain ⟨hfits, hnode⟩ := (hfolder.read_child_eq_ok hsidecarName).mp hread
  obtain ⟨data, sidecar, hwrite, hrender, hdata⟩ := h.paired key hkey _ hnode
  refine ⟨data, sidecar, hwrite, ?_, ?_⟩
  · simpa using hrender
  · exact (hfolder.read_child_eq_ok hdataName).mpr ⟨fits_dataPath hfits, hdata⟩

/-- What is listed in a complete folder is the sidecar of one of the keys. -/
theorem Complete.of_list (h : Complete keys calls folder) (hfolder : tree.Holds disk.root number folder)
    {sidecars : List Sidecar} (hlist : (disk.list.run tree).1 = .ok sidecars) {found : Sidecar}
    (hfound : found ∈ sidecars) :
    ∃ key ∈ keys, ∃ contents, tree.read (disk.sidecarPath key) = .ok contents ∧
      Sidecar.read contents = .ok found := by
  rw [run_list] at hlist
  cases hnames : tree.list disk.root with
  | error trouble => simp [hnames] at hlist
  | ok names =>
    simp only [hnames, Except.ok.injEq] at hlist
    rw [← hlist] at hfound
    obtain ⟨name, hname, hsidecar⟩ := List.mem_filterMap.mp hfound
    obtain ⟨hname, hsuffix⟩ := List.mem_filter.mp hname
    rw [hfolder.of_list hnames] at hname
    have hpresent : folder.node? name ≠ none := by
      intro hnone
      obtain ⟨item, hitem, rfl⟩ := List.mem_map.mp hname
      have := List.lookup_eq_none_iff.mp hnone item hitem
      simp at this
    obtain ⟨key, hkey, kind, rfl⟩ := h.owned name hpresent
    obtain rfl := (isSidecarName_fileName key kind).mp hsuffix
    refine ⟨key, hkey, ?_⟩
    unfold sidecarAt? at hsidecar
    cases hread : tree.read (disk.path (fileName key .sidecar)) with
    | error trouble => simp [hread] at hsidecar
    | ok contents =>
      rw [hread] at hsidecar
      refine ⟨contents, hread, ?_⟩
      cases hresult : Sidecar.read contents with
      | error fault => simp [hresult, Except.toOption] at hsidecar
      | ok sidecar => simpa [hresult, Except.toOption] using hsidecar

end Complete

/-- While calls on keys with different stems are made on an empty data directory, each of which may be cut
off anywhere, a sidecar that stands at the place of a key is always the whole sidecar of one call for
that key, and the data at the key's place is exactly that of the same call. Reading therefore pairs no
sidecar with the data of another call, and what is listed is the sidecar of a call whose data stands in
its place. -/
theorem Reaches.pairs_of_one_call (hkeys : Set.InjOn Key.stem keys) {above : ℕ}
    (hempty : tree.folderAt disk.root = .ok ⟨above, []⟩) (h : disk.Reaches tree calls after)
    (hcalls : ∀ call ∈ calls, call.key ∈ keys) :
    (∀ key ∈ keys, ∀ contents, after.read (disk.sidecarPath key) = .ok contents →
      ∃ data sidecar, Call.write key data sidecar ∈ calls ∧ contents = sidecar.render ∧
        after.read (disk.dataPath key) = .ok data) ∧
    (∀ key ∈ keys, ∀ found data, ((disk.read key).run after).1 = .ok (some (found, data)) →
      ∃ sidecar, Call.write key data sidecar ∈ calls ∧
        Sidecar.read sidecar.render = .ok found) ∧
    (∀ sidecars, (disk.list.run after).1 = .ok sidecars → ∀ found ∈ sidecars,
      ∃ key data sidecar, Call.write key data sidecar ∈ calls ∧
        Sidecar.read sidecar.render = .ok found ∧ found.key = sidecar.key ∧
          after.read (disk.dataPath key) = .ok data) := by
  obtain ⟨number, -, hstart⟩ := Tree.Holds.of_folderAt hempty
  obtain ⟨folder, hfolder, hcomplete⟩ := h.complete hkeys hstart hcalls
  refine ⟨fun key hkey contents hread => hcomplete.of_read hfolder hkey hread, ?_, ?_⟩
  · intro key hkey found data hread
    obtain ⟨contents, hsidecar, hparsed, hdata, -⟩ := run_read_eq_some.mp hread
    obtain ⟨data', sidecar, hwrite, hrender, hdata'⟩ := hcomplete.of_read hfolder hkey hsidecar
    rw [hdata, Except.ok.injEq] at hdata'
    rw [hrender] at hparsed
    rw [hdata']
    exact ⟨sidecar, hwrite, hparsed⟩
  · intro sidecars hlist found hfound
    obtain ⟨key, hkey, contents, hread, hparsed⟩ := hcomplete.of_list hfolder hlist hfound
    obtain ⟨data, sidecar, hwrite, hrender, hdata⟩ := hcomplete.of_read hfolder hkey hread
    rw [hrender] at hparsed
    have hkeySame : found.key = sidecar.key := by rw [(Sidecar.of_read_render hparsed).2]
    exact ⟨key, data, sidecar, hwrite, hparsed, hkeySame, hdata⟩

/-- An overwriting is cut off once the earlier sidecar is gone. After another one a deletion is cut off before
it does anything: the last sidecar stands, is read together with its data, and is listed. -/
theorem pairs_after_half_overwriting :
    let key : Key := ⟨"shop", "1.0"⟩
    let first : Sidecar := ⟨key, ⟨0, 0⟩, 1, Sha256.hexDigest [1]⟩
    let second : Sidecar := ⟨key, ⟨60, 0⟩, 2, Sha256.hexDigest [2, 3]⟩
    let third : Sidecar := ⟨key, ⟨90, 0⟩, 1, Sha256.hexDigest [4]⟩
    let calls : List Call :=
      [.write key [1] first, .write key [2, 3] second, .write key [4] third, .delete key]
    let stored := ((bareDisk.write key [1] first).run bareTree).2
    let bare := ((Operation.remove (bareDisk.sidecarPath key)).apply stored).2
    let after := ((bareDisk.write key [4] third).run bare).2
    Set.InjOn Key.stem {key} ∧ bareTree.folderAt bareDisk.root = .ok ⟨0, []⟩ ∧
      bareDisk.Reaches bareTree calls after ∧ (∀ call ∈ calls, call.key ∈ ({key} : Set Key)) ∧
      (after.read (bareDisk.sidecarPath key) = .ok third.render ∧
        ∃ data sidecar, Call.write key data sidecar ∈ calls ∧ third.render = sidecar.render ∧
          after.read (bareDisk.dataPath key) = .ok data) ∧
      (((bareDisk.read key).run after).1 = .ok (some (third, [4])) ∧
        ∃ sidecar, Call.write key [4] sidecar ∈ calls ∧ Sidecar.read sidecar.render = .ok third) ∧
      (bareDisk.list.run after).1 = .ok [third] ∧
        ∃ key data sidecar, Call.write key data sidecar ∈ calls ∧
          Sidecar.read sidecar.render = .ok third ∧ third.key = sidecar.key ∧
            after.read (bareDisk.dataPath key) = .ok data := by
  intro key first second third calls stored bare after
  have hkeys : Set.InjOn Key.stem {key} := Set.injOn_singleton _ _
  have hcalls : ∀ call ∈ calls, call.key ∈ ({key} : Set Key) := by
    intro call hcall
    simp only [calls, List.mem_cons, List.not_mem_nil, or_false] at hcall
    rcases hcall with rfl | rfl | rfl | rfl <;> rfl
  have hstored : bareDisk.Reaches bareTree ([] ++ [.write key [1] first]) stored :=
    .call .start (Script.leaves_run _ _)
  have hbare : bareDisk.Reaches bareTree (_ ++ [.write key [2, 3] second]) bare :=
    .call hstored (.later (.here _ _))
  have hafter : bareDisk.Reaches bareTree (_ ++ [.write key [4] third]) after :=
    .call hbare (Script.leaves_run _ _)
  have hreaches : bareDisk.Reaches bareTree calls after := .call hafter (.here _ _)
  obtain ⟨hread, hfound, hlist⟩ : after.read (bareDisk.sidecarPath key) = .ok third.render ∧
      ((bareDisk.read key).run after).1 = .ok (some (third, [4])) ∧
        (bareDisk.list.run after).1 = .ok [third] := by decide +kernel
  obtain ⟨hpaired, hreads, hlists⟩ :=
    Reaches.pairs_of_one_call hkeys folderAt_bareTree hreaches hcalls
  exact ⟨hkeys, folderAt_bareTree, hreaches, hcalls, ⟨hread, hpaired key rfl _ hread⟩,
    ⟨hfound, hreads key rfl _ _ hfound⟩, hlist, hlists _ hlist _ List.mem_cons_self⟩

end OriginMap.Disk
