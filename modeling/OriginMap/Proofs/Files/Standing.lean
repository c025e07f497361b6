import Mathlib.Data.List.Induction
import Mathlib.Data.List.TakeWhile
import Mathlib.Tactic.SplitIfs
import OriginMap.Proofs.Files.Directory
import OriginMap.Proofs.Files.Interruption

/-!
# Folders that stay

Writing, removing and renaming files keep the folders that there are, and making a folder that is there
already changes nothing and succeeds.
-/

namespace OriginMap.Files

/-! ## Operations -/

namespace Tree

/-- A spot is a name at the end of a path, in a folder of the tree to which the pieces before it
lead. -/
theorem of_spot {tree : Tree} {path : Path} {place : Spot} (h : tree.spot path = .ok place) :
    tree.reach path.isAbsolute path.dropLast = .ok (.folder place.number) ∧
      tree.folders[place.number]? = some place.folder ∧ path = path.dropLast ++ [place.name] ∧
        Path.isName place.name = true := by
  unfold spot at h
  split_ifs at h
  split at h
  · cases h
  · cases h
  · next hreach =>
    split at h
    · cases h
    · cases h
    · next folder name hfolder hlast =>
      split_ifs at h with hbad
      obtain rfl := Except.ok.inj h
      simp only [not_or, Nat.not_lt] at hbad
      obtain ⟨front, hfront⟩ := List.getLast?_eq_some_iff.mp hlast
      have hend : path = path.dropLast ++ [name] := by rw [hfront, List.dropLast_concat]
      exact ⟨hreach, hfolder, hend, Path.isName_iff.mpr hbad⟩

/-- Writing a file keeps the folders. -/
theorem sameFolders_of_write {tree after : Tree} {path : Path} {contents : Bytes}
    (h : tree.write path contents = .ok after) : tree.SameFolders after := by
  unfold write at h
  split at h
  · cases h
  · next number folder name hspot =>
    split at h
    · cases h
    · next hfree =>
      obtain rfl := Except.ok.inj h
      exact sameFolders_put (of_spot hspot).2.1 hfree contents

/-- Removing a file keeps the folders. -/
theorem sameFolders_of_remove {tree after : Tree} {path : Path} (h : tree.remove path = .ok after) :
    tree.SameFolders after := by
  unfold remove at h
  split at h
  · cases h
  · next number folder name hspot =>
    split at h
    · cases h
    · cases h
    · next contents hnode =>
      obtain rfl := Except.ok.inj h
      exact sameFolders_erase (of_spot hspot).2.1 hnode

end Tree

/-- A file that can be written below a path stands in a folder. -/
theorem Tree.holds_of_write {tree after : Tree} {root : Path} {name : String} {contents : Bytes}
    (h : tree.write (root.child name) contents = .ok after) :
    ∃ number folder, tree.Holds root number folder := by
  unfold Tree.write at h
  cases hspot : tree.spot (root.child name) with
  | error trouble => simp [hspot] at h
  | ok place =>
    obtain ⟨hreach, hfolder, -, -⟩ := Tree.of_spot hspot
    rw [Path.isAbsolute_child, Path.child_eq, List.dropLast_concat] at hreach
    exact ⟨place.number, place.folder, hreach, hfolder⟩

/-! ## Making a folder that is there -/

namespace Tree

/-- Where no piece of a path leads, no longer path leads. -/
theorem reach_append_error {tree : Tree} {absolute : Bool} {pieces more : List String}
    {trouble : Trouble} (h : tree.reach absolute pieces = .error trouble) :
    tree.reach absolute (pieces ++ more) = .error trouble := by
  induction more using List.reverseRecOn with
  | nil => rwa [List.append_nil]
  | append_singleton more piece ih => rw [← List.append_assoc, reach_concat, ih]; rfl

/-- A path is the same path without the slashes at its end, followed by them. -/
theorem trimmed_append (path : Path) :
    ∃ count : ℕ, path.trimmed ++ List.replicate count "" = path := by
  refine ⟨(path.reverse.takeWhile (· = "")).length, ?_⟩
  have hslashes : path.reverse.takeWhile (· = "") =
      List.replicate (path.reverse.takeWhile (· = "")).length "" := by
    rw [List.eq_replicate_iff]
    exact ⟨rfl, fun piece hpiece => by simpa using List.mem_takeWhile_imp hpiece⟩
  rw [Path.trimmed, ← List.reverse_replicate, ← hslashes, ← List.reverse_append,
    List.takeWhile_append_dropWhile, List.reverse_reverse]

/-- Slashes at the end of a path that ends in a name do not decide from where it is seen. -/
theorem isAbsolute_trimmed {path : Path} {name : String}
    (h : path.trimmed = path.trimmed.dropLast ++ [name]) (hname : name ≠ "") :
    path.trimmed.isAbsolute = path.isAbsolute := by
  obtain ⟨count, hpath⟩ := trimmed_append path
  cases hfront : path.trimmed with
  | nil =>
    rw [hfront] at h
    simp at h
  | cons first rest =>
    rw [hfront] at h hpath
    rw [← hpath]
    cases rest with
    | nil =>
      obtain rfl : first = name := by simpa using h
      cases count <;> simp [Path.isAbsolute, hname, List.replicate_succ]
    | cons second rest => by_cases hfirst : first = "" <;> simp [Path.isAbsolute, hfirst]

/-- A folder that is there is not made. -/
theorem makeFolder_eq_error {tree : Tree} {path : Path} {number : ℕ}
    (h : tree.walk path = .ok (.folder number)) :
    ∃ trouble, tree.makeFolder path = .error trouble := by
  unfold makeFolder
  split_ifs
  · exact ⟨_, rfl⟩
  · cases hspot : tree.spot path.trimmed with
    | error trouble => exact ⟨trouble, rfl⟩
    | ok place =>
      obtain ⟨hreach, hfolder, hend, hname⟩ := of_spot hspot
      obtain ⟨hempty, hdot, hdots, hsize⟩ := Path.isName_iff.mp hname
      obtain ⟨count, hpath⟩ := trimmed_append path
      cases hnode : place.folder.node? place.name with
      | some node => exact ⟨.refused, by simp [hnode]⟩
      | none =>
        have hfollow : tree.follow (.folder place.number) place.name = .error .missing := by
          unfold follow
          simp only [hfolder, hnode, hempty, hdot, hdots, Nat.not_lt.mpr hsize, or_self, if_false,
            Option.elim_none]
        have hmissing : tree.reach path.isAbsolute path.trimmed = .error .missing := by
          rw [← isAbsolute_trimmed hend hempty, hend, reach_concat, ← hend, hreach]
          exact hfollow
        have hwalk : tree.reach path.isAbsolute (path.trimmed ++ List.replicate count "") =
            .error .missing := reach_append_error hmissing
        rw [hpath] at hwalk
        unfold walk at h
        split_ifs at h
        rw [hwalk] at h
        cases h
  · exact ⟨_, rfl⟩

end Tree

namespace Script

/-- Making a folder that is there changes nothing. -/
theorem run_makeFolders {tree : Tree} {path : Path} {folder : Folder}
    (h : tree.folderAt path = .ok folder) : (makeFolders path).run tree = (.ok (), tree) := by
  obtain ⟨number, hwalk, -⟩ := Tree.Holds.of_folderAt h
  obtain ⟨trouble, hmake⟩ := Tree.makeFolder_eq_error hwalk
  have hempty : path ≠ .empty := by
    rintro rfl
    rw [Tree.walk, if_pos rfl] at hwalk
    cases hwalk
  have hfound : tree.isFolder path = true := by rw [Tree.isFolder, h]; rfl
  have hensure : (ensureFolder path).run tree = (.ok (), tree) := by
    rw [ensureFolder, run_bind, run_perform, Operation.apply, hmake]
    show (perform (.isFolder path) >>= fun found : Bool =>
      pure (if found then Except.ok () else Except.error trouble)).run tree = _
    rw [run_bind, run_perform, Operation.apply, hfound]
    rfl
  have hfirst : (makeFirst [] path.ancestors).run tree = (.ok [], tree) := by
    rw [Path.ancestors, makeFirst, if_neg hempty]
    show (ensureFolder path >>= _).run tree = _
    rw [run_bind, hensure]
    rfl
  rw [makeFolders, run_bind, hfirst]
  rfl

/-- Making the folder of a file's path, once the file can be looked up, changes nothing. -/
theorem run_makeFolders_of_holds {tree : Tree} {root : Path} {number : ℕ} {folder : Folder}
    {name : String} (h : tree.Holds root number folder) (hfits : (root.child name).fits = true) :
    (makeFolders root).run tree = (.ok (), tree) := by
  by_cases hroot : root = .empty
  · subst hroot
    rfl
  · exact run_makeFolders (h.folderAt (h.walk_root hroot (Path.fits_of_child hfits)))

end Script

end OriginMap.Files
