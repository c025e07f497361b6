/-!
# Paths

A path is the list of the pieces between the slashes of its text. An empty piece and a single dot lead
nowhere, two dots lead back to the folder above, and any other piece is a name. A path that starts with
a slash is seen from the root, every other from the working directory. Main statement: a text is the text
of its path.
-/

namespace OriginMap.Files

/-- The pieces of a path. -/
abbrev Path := List String

namespace Path

/-- The path with an empty text, at which there is never anything. -/
def empty : Path := [""]

/-- The path of the root. -/
def root : Path := ["", ""]

/-- The path with a given text. -/
def ofText (text : String) : Path := (text.toList.splitOn '/').map String.ofList

/-- The text of a path. -/
def toText (path : Path) : String := "/".intercalate path

/-- Whether a path is seen from the root. -/
def isAbsolute : Path → Bool
  | "" :: _ :: _ => true
  | _ => false

/-- How many bytes the text of a path has to stay below. -/
def maxSize : Nat := 4096

/-- How many bytes a name may have. -/
def maxNameSize : Nat := 255

/-- Whether a path can be looked up at all: its text is short enough and has no NUL. -/
def fits (path : Path) : Bool :=
  path.all (fun piece => !piece.toList.contains '\x00') && path.toText.utf8ByteSize < maxSize

/-- Whether a piece leads from the folder it stands in. -/
def leads (piece : String) : Bool := piece ≠ "" && piece ≠ "."

/-- The pieces of a path that lead somewhere. A dot that starts the path is kept. -/
def components : Path → List String
  | "." :: pieces => "." :: pieces.filter leads
  | path => path.filter leads

/-- The path that such pieces make. -/
def ofComponents (absolute : Bool) (pieces : List String) : Path :=
  match absolute, pieces with
  | false, [] => empty
  | false, pieces => pieces
  | true, [] => root
  | true, pieces => "" :: pieces

/-- The path up to the last piece that leads somewhere. -/
def parent (path : Path) : Path := ofComponents path.isAbsolute path.components.dropLast

/-- A path and the paths before its last piece, its last two pieces and so on. -/
def ancestors (path : Path) : List Path :=
  path :: (List.range path.components.length).reverse.map fun count =>
    ofComponents path.isAbsolute (path.components.take count)

/-- The path of what has a name in a folder. -/
def child (folder : Path) (name : String) : Path :=
  if folder.getLast? = some "" then folder.dropLast ++ [name] else folder ++ [name]

/-- The name at the end of a path, or the empty text if no name ends it. -/
def fileName (path : Path) : String :=
  match path.components.getLast? with
  | none => ""
  | some piece => if piece = "." ∨ piece = ".." then "" else piece

/-- A path without the slashes at its end. -/
def trimmed (path : Path) : Path := (path.reverse.dropWhile (· = "")).reverse

/-! ## Laws -/

/-- A text is the text of its path. -/
@[simp] theorem toText_ofText (text : String) : (ofText text).toText = text := by
  rw [← String.toList_inj, toText, ofText, String.toList_intercalate]
  simp [Function.comp_def]

end Path

end OriginMap.Files
