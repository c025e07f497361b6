import OriginMap.Files.Folder
import OriginMap.Files.Path

/-!
# File trees

The files and folders that programs see, as a value. Folders are numbered, the root with zero. A path is
followed piece by piece, and every piece has to be sought in a folder that is there. A failed operation
leaves the tree as it was, but for the removal of a folder with what is in it.
-/

namespace OriginMap.Files

/-- Why an operation fails. -/
inductive Trouble where
  /-- There is nothing at the path. -/
  | missing
  /-- The operation cannot be done on what is there. -/
  | refused
  deriving DecidableEq, Repr

/-- The wording of a trouble. -/
def Trouble.message : Trouble → String
  | missing => "there is no such file"
  | refused => "the operation was refused"

/-- A tree of folders. Every name stands for a file of its own or for a folder: there are no links, neither
hard nor symbolic, and no two names share their contents. Nothing is forbidden and there is always space, so
an operation fails only for its path and for what stands there. -/
structure Tree where
  /-- The folders by their numbers. -/
  folders : Array Folder
  /-- The path of the working directory, seen from the root. -/
  here : Path
  deriving DecidableEq, Repr

namespace Tree

/-- A tree of files in the root alone, which is the working directory. -/
def ofFiles (files : List (String × Bytes)) : Tree :=
  ⟨#[⟨0, files.map fun (name, contents) => (name, .file contents)⟩], .root⟩

/-! ## Ways -/

/-- Where one piece of a path leads. -/
def follow (tree : Tree) (node : Node) (piece : String) : Except Trouble Node :=
  match node with
  | .file _ => .error .refused
  | .folder number =>
    match tree.folders[number]? with
    | none => .error .missing
    | some folder =>
      if piece = "" ∨ piece = "." then .ok node
      else if piece = ".." then .ok (.folder folder.above)
      else if Path.maxNameSize < piece.utf8ByteSize then .error .refused
      else (folder.node? piece).elim (.error .missing) .ok

/-- Where some pieces of a path lead, from the root on if it is absolute. -/
def reach (tree : Tree) (absolute : Bool) (pieces : List String) : Except Trouble Node :=
  (if absolute then pieces else tree.here ++ pieces).foldlM tree.follow (.folder 0)

/-- What stands at a path. -/
def walk (tree : Tree) (path : Path) : Except Trouble Node :=
  if path = .empty then .error .missing
  else if path.fits then tree.reach path.isAbsolute path
  else .error .refused

/-- A name in a folder, whether it stands for something or not. -/
structure Spot where
  /-- The number of the folder. -/
  number : Nat
  /-- The folder. -/
  folder : Folder
  /-- The name. -/
  name : String

/-- The name that a path ends in, in the folder that its other pieces lead to. -/
def spot (tree : Tree) (path : Path) : Except Trouble Spot :=
  if path = .empty then .error .missing
  else if path.fits then
    match tree.reach path.isAbsolute path.dropLast with
    | .error trouble => .error trouble
    | .ok (.file _) => .error .refused
    | .ok (.folder number) =>
      match tree.folders[number]?, path.getLast? with
      | none, _ => .error .missing
      | some _, none => .error .refused
      | some folder, some name =>
        if name = "" ∨ name = "." ∨ name = ".." ∨ Path.maxNameSize < name.utf8ByteSize then
          .error .refused
        else .ok ⟨number, folder, name⟩
  else .error .refused

/-- The tree with a change to one folder. -/
def change (tree : Tree) (number : Nat) (new : Folder → Folder) : Tree :=
  { tree with folders := tree.folders.modify number new }

/-! ## Operations -/

/-- The contents of a file. -/
def read (tree : Tree) (path : Path) : Except Trouble Bytes :=
  match tree.walk path with
  | .error trouble => .error trouble
  | .ok (.folder _) => .error .refused
  | .ok (.file contents) => .ok contents

/-- Writes a file, new or in place of another. -/
def write (tree : Tree) (path : Path) (contents : Bytes) : Except Trouble Tree :=
  match tree.spot path with
  | .error trouble => .error trouble
  | .ok ⟨number, folder, name⟩ =>
    match folder.node? name with
    | some (.folder _) => .error .refused
    | _ => .ok (tree.change number (·.put name (.file contents)))

/-- Removes a file. -/
def remove (tree : Tree) (path : Path) : Except Trouble Tree :=
  match tree.spot path with
  | .error trouble => .error trouble
  | .ok ⟨number, folder, name⟩ =>
    match folder.node? name with
    | none => .error .missing
    | some (.folder _) => .error .refused
    | some (.file _) => .ok (tree.change number (·.erase name))

/-- Gives a file another path; a file that stood there is lost. -/
def rename (tree : Tree) (source target : Path) : Except Trouble Tree :=
  match tree.read source with
  | .error trouble => .error trouble
  | .ok contents =>
    match tree.remove source with
    | .error trouble => .error trouble
    | .ok rest => rest.write target contents

/-- The folder at a path. -/
def folderAt (tree : Tree) (path : Path) : Except Trouble Folder :=
  match tree.walk path with
  | .error trouble => .error trouble
  | .ok (.file _) => .error .refused
  | .ok (.folder number) => (tree.folders[number]?).elim (.error .missing) .ok

/-- The names in a folder. -/
def list (tree : Tree) (path : Path) : Except Trouble (List String) :=
  (tree.folderAt path).map fun folder => folder.nodes.map Prod.fst

/-- Whether there is a folder at a path. -/
def isFolder (tree : Tree) (path : Path) : Bool := (tree.folderAt path).isOk

/-- Makes a folder where there is nothing. The path may end in slashes. -/
def makeFolder (tree : Tree) (path : Path) : Except Trouble Tree :=
  if path = .empty then .error .missing
  else if path.fits then
    match tree.spot path.trimmed with
    | .error trouble => .error trouble
    | .ok ⟨number, folder, name⟩ =>
      match folder.node? name with
      | some _ => .error .refused
      | none =>
        let changed := tree.change number (·.put name (.folder tree.folders.size))
        .ok { changed with folders := changed.folders.push ⟨number, []⟩ }
  else .error .refused

/-- The tree after a change that may fail, and whether it did. -/
def settle (tree : Tree) : Except Trouble Tree → Except Trouble Unit × Tree
  | .ok changed => (.ok (), changed)
  | .error trouble => (.error trouble, tree)

/-- Removes a file, or a folder with all that is in it. A folder is emptied first, and stays empty if
the path does not end in its name. The path may end in slashes then. A folder that is gone by then, as
the path went through what was in it, counts as removed. -/
def prune (tree : Tree) (path : Path) : Except Trouble Unit × Tree :=
  match tree.walk path with
  | .ok (.folder number) =>
    let emptied := tree.change number fun folder => { folder with nodes := [] }
    match emptied.spot path.trimmed with
    | .error .missing => (.ok (), emptied)
    | .error .refused => (.error .refused, emptied)
    | .ok ⟨number, _, name⟩ => (.ok (), emptied.change number (·.erase name))
  | _ => tree.settle (tree.remove path)

end Tree

end OriginMap.Files
