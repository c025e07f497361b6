import OriginMap.Proofs.Disk
import OriginMap.Proofs.Files.Footprint

/-!
# What the disk does on its way

Whatever a key is made of, storing and deleting under it create, rename and remove only files right in the
data directory that have one of its names: its stem and one of four suffixes, short and of harmless
characters. Reading and listing only look, and listing looks at no file that is still being written.
-/

namespace OriginMap

open Files

namespace Disk

/-! ## Names -/

/-- A name of a key's file. -/
structure OwnName (key : Key) (name : String) : Prop where
  /-- It is the stem of the key with one of four suffixes. -/
  suffix : ∃ suffix ∈ [".map", ".map.tmp", ".meta.json", ".meta.json.tmp"], name = key.stem ++ suffix
  /-- It consists of letters and digits of ASCII and of four other characters. -/
  plain : ∀ c ∈ name.toList, c.isAlphanum = true ∨ c ∈ ['-', '_', '@', '.']
  /-- It has at most 160 bytes. -/
  short : name.utf8ByteSize ≤ 160

/-- The characters in names are letters and digits of ASCII and four others. -/
theorem of_isNameChar {c : Char} (h : Key.isNameChar c = true) :
    c.isAlphanum = true ∨ c ∈ ['-', '_', '@', '.'] := by
  simp only [Key.isNameChar, Key.isPlain, Bool.or_eq_true, Bool.and_eq_true, decide_eq_true_eq] at h
  rcases h with (((((hdigit | hupper) | hlower) | rfl) | rfl) | rfl) | rfl
  · have hdigit : c.isDigit = true :=
      Bool.and_eq_true_iff.mpr ⟨decide_eq_true hdigit.1, decide_eq_true hdigit.2⟩
    exact Or.inl (Bool.or_eq_true_iff.mpr (Or.inr hdigit))
  · have hupper : c.isUpper = true := decide_eq_true hupper
    have halpha : c.isAlpha = true := Bool.or_eq_true_iff.mpr (Or.inl hupper)
    exact Or.inl (Bool.or_eq_true_iff.mpr (Or.inl halpha))
  · have hlower : c.isLower = true :=
      Bool.and_eq_true_iff.mpr ⟨decide_eq_true hlower.1, decide_eq_true hlower.2⟩
    have halpha : c.isAlpha = true := Bool.or_eq_true_iff.mpr (Or.inr hlower)
    exact Or.inl (Bool.or_eq_true_iff.mpr (Or.inl halpha))
  all_goals simp

/-- The name of each of a key's files is one of its own. -/
theorem ownName_fileName (key : Key) (kind : FileKind) : OwnName key (fileName key kind) := by
  refine ⟨⟨kind.suffix, ?_, rfl⟩, fun c hc => of_isNameChar ((fileName_toList key kind).2 c hc),
    utf8ByteSize_fileName_le key kind⟩
  cases kind <;> decide

/-- A key's own name is the name of one of its files. -/
theorem OwnName.exists_fileName {key : Key} {name : String} (h : OwnName key name) :
    ∃ kind, name = fileName key kind := by
  obtain ⟨suffix, hsuffix, rfl⟩ := h.suffix
  simp only [List.mem_cons, List.not_mem_nil, or_false] at hsuffix
  rcases hsuffix with rfl | rfl | rfl | rfl
  · exact ⟨.data, rfl⟩
  · exact ⟨.dataDraft, rfl⟩
  · exact ⟨.sidecar, rfl⟩
  · exact ⟨.sidecarDraft, rfl⟩

/-- A key's own names can name something in a folder. -/
theorem OwnName.isName {key : Key} {name : String} (h : OwnName key name) :
    Path.isName name = true := by
  obtain ⟨kind, rfl⟩ := h.exists_fileName
  exact isName_fileName key kind

/-- A draft is not taken for a sidecar. -/
theorem isSidecarName_of_draft {name : String} (h : draftSuffix.toList <:+ name.toList) :
    isSidecarName name = false := by
  by_contra htrue
  rw [Bool.not_eq_false, isSidecarName, List.isSuffixOf_iff_suffix] at htrue
  rcases List.suffix_or_suffix_of_suffix h htrue with hsuffix | hsuffix
  · exact absurd hsuffix (by decide)
  · exact absurd hsuffix (by decide)

/-! ## The disk -/

section Disk

variable (disk : Disk) (key : Key) (tree : Tree)

/-- Removing a file under a permitted name works on the permitted names. -/
theorem worksOn_removeIfPresent {permitted : String → Prop} {name : String} (hname : permitted name) :
    (removeIfPresent (disk.path name)).WorksOn disk.root permitted tree := by
  refine (Script.performs_perform (.remove name hname) tree).bind ?_
  generalize ((Script.perform _).run tree).1 = answer
  rcases answer with (_ | _) | _ <;> exact Script.performs_pure _ _ _

/-- Replacing one of a key's files works on its names. -/
theorem worksOn_writeWhole {kind draft : FileKind}
    (hdraft : fileName key kind ++ draftSuffix = fileName key draft) (contents : Bytes) :
    (disk.writeWhole (fileName key kind) contents).WorksOn disk.root (OwnName key) tree := by
  rw [writeWhole, hdraft]
  refine (Script.performs_perform (.write _ contents (ownName_fileName key draft)) tree).bind ?_
  generalize ((Script.perform _).run tree).1 = answer
  rcases answer with trouble | _
  · exact Script.performs_pure _ _ _
  · refine (Script.performs_perform
      (.rename _ _ (ownName_fileName key draft) (ownName_fileName key kind)) _).bind ?_
    generalize ((Script.perform _).run _).1 = answer
    rcases answer with trouble | _ <;> exact Script.performs_pure _ _ _

/-- Storing under a key works on its names. -/
theorem worksOn_write (data : Bytes) (sidecar : Sidecar) :
    (disk.write key data sidecar).WorksOn disk.root (OwnName key) tree := by
  have hdata : fileName key .data ++ draftSuffix = fileName key .dataDraft := dataName_append key
  have hsidecar : fileName key .sidecar ++ draftSuffix = fileName key .sidecarDraft :=
    sidecarName_append key
  refine (worksOn_removeIfPresent disk tree (ownName_fileName key .sidecar)).bind ?_
  cases ((removeIfPresent (disk.path (fileName key .sidecar))).run tree).1 with
  | error e => exact Script.performs_pure _ _ _
  | ok _ =>
    refine (worksOn_writeWhole disk key _ hdata data).bind ?_
    cases ((disk.writeWhole (fileName key .data) data).run _).1 with
    | error e => exact Script.performs_pure _ _ _
    | ok _ => exact worksOn_writeWhole disk key _ hsidecar sidecar.render

/-- Deleting a key works on its names. -/
theorem worksOn_delete : (disk.delete key).WorksOn disk.root (OwnName key) tree := by
  refine (worksOn_removeIfPresent disk tree (ownName_fileName key .sidecar)).bind ?_
  cases ((removeIfPresent (disk.path (fileName key .sidecar))).run tree).1 with
  | error e => exact Script.performs_pure _ _ _
  | ok existed =>
    refine (worksOn_removeIfPresent disk _ (ownName_fileName key .data)).bind ?_
    cases ((removeIfPresent (disk.path (fileName key .data))).run _).1 with
    | error e => exact Script.performs_pure _ _ _
    | ok _ => exact Script.performs_pure _ _ _

/-- Storing keeps the folders. -/
theorem sameFolders_write (data : Bytes) (sidecar : Sidecar) :
    tree.SameFolders ((disk.write key data sidecar).run tree).2 :=
  ((worksOn_write disk key tree data sidecar).alteredAt fun _ hname => hname.isName).folders

/-- Deleting keeps the folders. -/
theorem sameFolders_delete : tree.SameFolders ((disk.delete key).run tree).2 :=
  ((worksOn_delete disk key tree).alteredAt fun _ hname => hname.isName).folders

end Disk

/-! ## Looking -/

/-- Reading a sidecar reads one file. -/
theorem operations_readSidecarAt (path : Path) (tree : Tree) :
    (readSidecarAt path).operations tree = [.read path] := by
  rw [readSidecarAt, Script.operations_bind, Script.operations_perform]
  generalize ((Script.perform (.read path)).run tree).1 = answer
  rcases answer with (_ | _) | contents
  · rfl
  · rfl
  · simp only
    cases Sidecar.read contents <;> rfl

/-- Reading sidecars reads their files. -/
theorem operations_readAll (disk : Disk) (names : List String) (tree : Tree) :
    (disk.readAll names).operations tree = names.map fun name => .read (disk.path name) := by
  induction names generalizing tree with
  | nil => rfl
  | cons name names ih =>
    rw [readAll, Script.operations_bind, operations_readSidecarAt, Script.operations_bind, ih]
    generalize ((readSidecarAt (disk.path name)).run tree).1 = found
    rcases found with e | (_ | sidecar)
    all_goals
      rw [Script.operations_pure, List.append_nil]
      rfl

/-- Listing sidecars lists the data directory and reads files in it, but none that is still being
written. -/
theorem of_mem_operations_list {disk : Disk} {tree : Tree} {operation : Operation}
    (h : operation ∈ disk.list.operations tree) : operation = .list disk.root ∨
      ∃ name, operation = .read (disk.path name) ∧ ¬draftSuffix.toList <:+ name.toList := by
  rw [list, Script.operations_bind, Script.operations_perform, List.singleton_append,
    List.mem_cons] at h
  rcases h with rfl | h
  · exact Or.inl rfl
  · refine Or.inr ?_
    generalize ((Script.perform (.list disk.root)).run tree).1 = answer at h
    rcases answer with trouble | names
    · cases h
    · simp only at h
      rw [Script.operations_bind, operations_readAll, Script.operations_pure, List.append_nil] at h
      obtain ⟨name, hname, rfl⟩ := List.mem_map.mp h
      refine ⟨name, rfl, fun hdraft => ?_⟩
      have hsidecar := (List.mem_filter.mp hname).2
      rw [isSidecarName_of_draft hdraft] at hsidecar
      cases hsidecar

/-- Reading a sidecar only looks. -/
theorem worksOn_readSidecar (disk : Disk) (key : Key) (permitted : String → Prop) (tree : Tree) :
    (disk.readSidecar key).WorksOn disk.root permitted tree := by
  intro operation hoperation
  rw [readSidecar, operations_readSidecarAt] at hoperation
  rw [List.mem_singleton.mp hoperation]
  exact .read _

/-- Listing sidecars only looks. -/
theorem worksOn_list (disk : Disk) (permitted : String → Prop) (tree : Tree) :
    disk.list.WorksOn disk.root permitted tree := by
  intro operation hoperation
  rcases of_mem_operations_list hoperation with rfl | ⟨name, rfl, -⟩
  · exact .list _
  · exact .read _

end Disk

end OriginMap
