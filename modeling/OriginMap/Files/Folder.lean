import OriginMap.Bytes

/-!
# Folders

A folder says what has which name in it: a file with its contents, or another folder by its number.
Main statements: after a name was given to something it stands for that, after it was erased it stands
for nothing, and all other names stand for what they stood for.
-/

namespace OriginMap.Files

/-- What a name stands for. -/
inductive Node where
  /-- A file and its contents. -/
  | file (contents : Bytes)
  /-- The folder of this number. -/
  | folder (number : Nat)
  deriving DecidableEq, Repr

/-- A folder. It has neither an owner nor permissions. -/
structure Folder where
  /-- The number of the folder above it; that of the root is its own. -/
  above : Nat
  /-- What has which name in it, in the order in which the names are listed. -/
  nodes : List (String × Node)
  deriving DecidableEq, Repr

namespace Folder

/-- What has a name in a folder. -/
def node? (folder : Folder) (name : String) : Option Node := folder.nodes.lookup name

/-- A folder without a name. -/
def erase (folder : Folder) (name : String) : Folder :=
  { folder with nodes := folder.nodes.filter fun item => item.1 ≠ name }

/-- A folder in which a name stands for something else. -/
def put (folder : Folder) (name : String) (node : Node) : Folder :=
  { folder with nodes := (folder.erase name).nodes ++ [(name, node)] }

/-! ## Laws -/

/-- Looking a name up among the items without another name. -/
theorem lookup_filter_ne [DecidableEq κ] (nodes : List (κ × ν)) (gone name : κ) :
    (nodes.filter fun item => item.1 ≠ gone).lookup name =
      if name = gone then none else nodes.lookup name := by
  induction nodes with
  | nil => simp
  | cons item nodes ih =>
    obtain ⟨key, node⟩ := item
    by_cases hname : name = key
    · subst hname
      by_cases hgone : name = gone
      · simpa [List.filter_cons, hgone] using ih
      · simp [hgone]
    · have hfalse := beq_eq_false_iff_ne.2 hname
      by_cases hgone : key = gone
      · subst hgone
        simpa [List.filter_cons, List.lookup_cons, hname, hfalse] using ih
      · simpa [List.filter_cons, List.lookup_cons, hgone, hfalse] using ih

/-- An erased name stands for nothing; the others stand for what they stood for. -/
@[simp] theorem node?_erase (folder : Folder) (gone name : String) :
    (folder.erase gone).node? name = if name = gone then none else folder.node? name :=
  lookup_filter_ne folder.nodes gone name

/-- A name that was put stands for its node; the others stand for what they stood for. -/
@[simp] theorem node?_put (folder : Folder) (added name : String) (node : Node) :
    (folder.put added node).node? name =
      if name = added then some node else folder.node? name := by
  show ((folder.nodes.filter fun item => item.1 ≠ added) ++ [(added, node)]).lookup name = _
  rw [List.lookup_append, lookup_filter_ne]
  by_cases h : name = added
  · simp [h]
  · simp [h, List.lookup_cons, beq_eq_false_iff_ne.2 h, node?]

/-- A change of its nodes leaves a folder where it is. -/
@[simp] theorem above_erase (folder : Folder) (name : String) :
    (folder.erase name).above = folder.above := rfl

/-- A change of its nodes leaves a folder where it is. -/
@[simp] theorem above_put (folder : Folder) (name : String) (node : Node) :
    (folder.put name node).above = folder.above := rfl

end Folder

end OriginMap.Files
