import OriginMap.Files.Tree

/-!
# File scripts

A script is a computation that works with files: a tree of file operations and of what to do with each
answer. One script can be run on a file tree as a value, which is what statements about it are about,
and on real files, which is what the command line does.
-/

namespace OriginMap.Files

/-- A file operation. -/
inductive Operation where
  /-- Reads a file. -/
  | read (path : Path)
  /-- Writes a file. -/
  | write (path : Path) (contents : Bytes)
  /-- Removes a file. -/
  | remove (path : Path)
  /-- Gives a file another path. -/
  | rename (source target : Path)
  /-- Lists a folder. -/
  | list (folder : Path)
  /-- Makes a folder in one that is there. -/
  | makeFolder (folder : Path)
  /-- Asks whether there is a folder. -/
  | isFolder (path : Path)
  /-- Asks for the working directory. -/
  | whereabouts
  deriving DecidableEq, Repr

/-- What an operation answers. -/
abbrev Operation.Answer : Operation → Type
  | read _ => Except Trouble Bytes
  | list _ => Except Trouble (List String)
  | isFolder _ => Bool
  | whereabouts => Except Trouble Path
  | _ => Except Trouble Unit

/-- A computation that works with files. -/
inductive Script (α : Type) : Type where
  /-- It is done. -/
  | done (result : α)
  /-- An operation, and how to go on with its answer. -/
  | step (operation : Operation) (next : operation.Answer → Script α)

namespace Script

/-- One script after another. -/
def bind (script : Script α) (next : α → Script β) : Script β :=
  match script with
  | .done result => next result
  | .step operation rest => .step operation fun answer => (rest answer).bind next

instance : Monad Script where
  pure := .done
  bind := .bind

/-- A single operation. -/
def perform (operation : Operation) : Script operation.Answer := .step operation .done

/-- Makes a folder where there is nothing. The trouble counts only if there is no folder then. -/
def ensureFolder (path : Path) : Script (Except Trouble Unit) := do
  match ← perform (.makeFolder path) with
  | .ok () => return .ok ()
  | .error trouble =>
    let found : Bool ← perform (.isFolder path)
    return if found then .ok () else .error trouble

/-- Makes the first folder for which what it has to stand in is there. The folders before it are still
to be made, and are given in the order in which to make them. -/
def makeFirst (left : List Path) : List Path → Script (Except Trouble (List Path))
  | [] => return .ok left
  | path :: paths => do
    if path = .empty then return .ok left
    match ← ensureFolder path with
    | .ok () => return .ok left
    | .error .missing => makeFirst (path :: left) paths
    | .error .refused => return .error .refused

/-- Makes folders one after another. -/
def makeAll : List Path → Script (Except Trouble Unit)
  | [] => return .ok ()
  | path :: paths => do
    match ← ensureFolder path with
    | .ok () => makeAll paths
    | .error trouble => return .error trouble

/-- Makes a folder and those on the way to it, as far as they are not there. The path is tried first,
then the one above it and so on. Folders that were made on the way to trouble stay. -/
def makeFolders (path : Path) : Script (Except Trouble Unit) := do
  match ← makeFirst [] path.ancestors with
  | .error trouble => return .error trouble
  | .ok left => makeAll left

end Script

/-- The answer of an operation on a tree, and the tree after it. -/
def Operation.apply (operation : Operation) (tree : Tree) : operation.Answer × Tree :=
  match operation with
  | .read path => (tree.read path, tree)
  | .write path contents => tree.settle (tree.write path contents)
  | .remove path => tree.settle (tree.remove path)
  | .rename source target => tree.settle (tree.rename source target)
  | .list folder => (tree.list folder, tree)
  | .makeFolder folder => tree.settle (tree.makeFolder folder)
  | .isFolder path => (tree.isFolder path, tree)
  | .whereabouts => (.ok tree.here, tree)

/-- The result of a script on a tree, and the tree after it. -/
def Script.run (script : Script α) (tree : Tree) : α × Tree :=
  match script with
  | .done result => (result, tree)
  | .step operation next =>
    let (answer, changed) := operation.apply tree
    (next answer).run changed

/-- Running two scripts in a row. -/
theorem Script.run_bind (script : Script α) (next : α → Script β) (tree : Tree) :
    (script >>= next).run tree = (next (script.run tree).1).run (script.run tree).2 := by
  show (script.bind next).run tree = _
  induction script generalizing tree with
  | done result => rfl
  | step operation rest ih => exact ih _ _

/-- A finished script changes nothing. -/
@[simp] theorem Script.run_pure (result : α) (tree : Tree) :
    (pure result : Script α).run tree = (result, tree) := rfl

/-- A single operation does what it does on the tree. -/
@[simp] theorem Script.run_perform (operation : Operation) (tree : Tree) :
    (Script.perform operation).run tree = operation.apply tree := rfl

end OriginMap.Files
