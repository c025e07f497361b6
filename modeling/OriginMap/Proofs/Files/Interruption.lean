import Mathlib.Data.Nat.Notation
import OriginMap.Files.Script

/-!
# Scripts that are cut off

A program may end before it is done: the machine stops, or the process is killed. Its script is then cut
off between two operations, or in the middle of a write, which leaves a file with the first part of its
contents. The trees that a script may leave this way are an inductive relation, which includes the tree
after the whole script.
-/

namespace OriginMap.Files.Script

/-! ## Single operations -/

/-- Reading answers what is read and changes nothing. -/
@[simp] theorem run_read (path : Path) (tree : Tree) :
    (perform (.read path)).run tree = (tree.read path, tree) := rfl

/-- Writing answers whether it was done. -/
@[simp] theorem run_write (path : Path) (contents : Bytes) (tree : Tree) :
    (perform (.write path contents)).run tree = tree.settle (tree.write path contents) := rfl

/-- Removing answers whether it was done. -/
@[simp] theorem run_remove (path : Path) (tree : Tree) :
    (perform (.remove path)).run tree = tree.settle (tree.remove path) := rfl

/-- Renaming answers whether it was done. -/
@[simp] theorem run_rename (source target : Path) (tree : Tree) :
    (perform (.rename source target)).run tree = tree.settle (tree.rename source target) := rfl

/-- Listing answers the names and changes nothing. -/
@[simp] theorem run_list (folder : Path) (tree : Tree) :
    (perform (.list folder)).run tree = (tree.list folder, tree) := rfl

/-! ## Cutting off -/

/-- The trees that a script may leave when it is cut off. -/
inductive Leaves {α : Type} : Script α → Tree → Tree → Prop
  /-- It is cut off before its next operation, or done. -/
  | here (script : Script α) (tree : Tree) : Leaves script tree tree
  /-- It is cut off while it writes a file. -/
  | torn {path : Path} {written contents : Bytes} (hpart : written <+: contents)
      (next : (Operation.write path contents).Answer → Script α) (tree : Tree) :
      Leaves (.step (.write path contents) next) tree (tree.settle (tree.write path written)).2
  /-- It is cut off after its next operation. -/
  | later {operation : Operation} {next : operation.Answer → Script α} {tree after : Tree}
      (h : Leaves (next (operation.apply tree).1) (operation.apply tree).2 after) :
      Leaves (.step operation next) tree after

/-- A whole script leaves the tree after it. -/
theorem leaves_run (script : Script α) (tree : Tree) : script.Leaves tree (script.run tree).2 := by
  induction script generalizing tree with
  | done result => exact .here _ _
  | step operation next ih => exact .later (ih _ _)

/-- A finished script leaves the tree as it is. -/
@[simp] theorem leaves_pure {result : α} {tree after : Tree} :
    (pure result : Script α).Leaves tree after ↔ after = tree := by
  constructor
  · intro h
    cases h
    rfl
  · rintro rfl
    exact .here _ _

/-- Two scripts in a row are cut off in the first one or, after it, in the second. -/
theorem Leaves.of_bind {script : Script α} {next : α → Script β} {tree after : Tree}
    (h : (script >>= next).Leaves tree after) :
    script.Leaves tree after ∨ (next (script.run tree).1).Leaves (script.run tree).2 after := by
  induction script generalizing tree with
  | done result => exact Or.inr h
  | step operation rest ih =>
    change Leaves (.step operation fun answer => (rest answer).bind next) tree after at h
    cases h with
    | here => exact Or.inl (.here _ _)
    | torn hpart => exact Or.inl (.torn hpart _ _)
    | later h =>
      rcases ih _ h with h | h
      · exact Or.inl (.later h)
      · exact Or.inr h

/-- A script that stops at the failure of another one is cut off in that one or after its success. -/
theorem Leaves.of_bind_ok {script : Script (Except ε α)} {next : Except ε α → Script β}
    {tree after : Tree} (hstop : ∀ e, ∃ result, next (.error e) = pure result)
    (h : (script >>= next).Leaves tree after) :
    script.Leaves tree after ∨
      ∃ value middle, script.run tree = (.ok value, middle) ∧
        (next (.ok value)).Leaves middle after := by
  rcases h.of_bind with h | h
  · exact Or.inl h
  · rcases hrun : script.run tree with ⟨e | value, middle⟩
    · obtain ⟨result, hresult⟩ := hstop e
      rw [hrun, hresult] at h
      obtain rfl := leaves_pure.mp h
      have hwhole := script.leaves_run tree
      rw [hrun] at hwhole
      exact Or.inl hwhole
    · rw [hrun] at h
      exact Or.inr ⟨value, middle, rfl, h⟩

/-- A failed change leaves the tree as it is, and any other leaves the changed one. -/
theorem settle_eq {tree after : Tree} {result : Except Trouble Tree}
    (h : after = (tree.settle result).2) : after = tree ∨ result = .ok after := by
  cases result with
  | error trouble => exact Or.inl h
  | ok changed => exact Or.inr (by rw [h]; rfl)

/-- A removal that is cut off was done or not. -/
theorem Leaves.of_remove {path : Path} {tree after : Tree}
    (h : (perform (.remove path)).Leaves tree after) :
    after = tree ∨ tree.remove path = .ok after := by
  cases h with
  | here => exact Or.inl rfl
  | later h => exact settle_eq (leaves_pure.mp h)

/-- A renaming that is cut off was done or not. -/
theorem Leaves.of_rename {source target : Path} {tree after : Tree}
    (h : (perform (.rename source target)).Leaves tree after) :
    after = tree ∨ tree.rename source target = .ok after := by
  cases h with
  | here => exact Or.inl rfl
  | later h => exact settle_eq (leaves_pure.mp h)

/-- A write that is cut off has written some part of the contents, or nothing at all. -/
theorem Leaves.of_write {path : Path} {contents : Bytes} {tree after : Tree}
    (h : (perform (.write path contents)).Leaves tree after) :
    after = tree ∨ ∃ written, written <+: contents ∧ tree.write path written = .ok after := by
  cases h with
  | here => exact Or.inl rfl
  | torn hpart => exact (settle_eq rfl).imp_right fun h => ⟨_, hpart, h⟩
  | later h => exact (settle_eq (leaves_pure.mp h)).imp_right fun h => ⟨_, List.prefix_rfl, h⟩

end OriginMap.Files.Script
