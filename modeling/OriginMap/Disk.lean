import OriginMap.Files.Script
import OriginMap.Sidecar

/-!
# Artifacts on disk

Each key owns two files in the data directory, named by its stem: the data and the sidecar. The sidecar
is written last and removed first, so that its presence marks a complete artifact; both are written
beside their place and then renamed into it.
-/

namespace OriginMap

open Files

/-- Why the disk fails. -/
inductive StorageError where
  /-- An operation on a path fails. -/
  | io (path : Path) (trouble : Trouble)
  /-- A sidecar cannot be read. -/
  | corruptSidecar (path : Path) (fault : Json.Fault)
  deriving DecidableEq, Repr

/-- The path that an error is about. -/
def StorageError.path : StorageError → Path
  | io path _ => path
  | corruptSidecar path _ => path

/-- The wording of the error. -/
def StorageError.message : StorageError → String
  | io path trouble => "I/O error at " ++ path.toText ++ ": " ++ trouble.message
  | corruptSidecar path fault => "corrupt artifact metadata at " ++ path.toText ++ ": " ++ fault.category

/-- The data directory. -/
structure Disk where
  /-- Its path. -/
  root : Path
  deriving DecidableEq, Repr

namespace Disk

/-- What ends the name of a data file. -/
def dataSuffix : String := ".map"

/-- What ends the name of a sidecar. -/
def sidecarSuffix : String := ".meta.json"

/-- What ends the name of a file that is still being written. -/
def draftSuffix : String := ".tmp"

/-- The name of a key's data file. -/
def dataName (key : Key) : String := key.stem ++ dataSuffix

/-- The name of a key's sidecar. -/
def sidecarName (key : Key) : String := key.stem ++ sidecarSuffix

/-- The path of a file in the data directory. -/
def path (disk : Disk) (name : String) : Path := disk.root.child name

/-- The path of a key's data file. -/
def dataPath (disk : Disk) (key : Key) : Path := disk.path (dataName key)

/-- The path of a key's sidecar. -/
def sidecarPath (disk : Disk) (key : Key) : Path := disk.path (sidecarName key)

/-- Opens a data directory, making it if needed. -/
def makeReady (root : Path) : Script (Except StorageError Disk) := do
  match ← Script.makeFolders root with
  | .ok () => return .ok ⟨root⟩
  | .error trouble => return .error (.io root trouble)

/-- Removes a file and says whether there was one. -/
def removeIfPresent (path : Path) : Script (Except StorageError Bool) := do
  match ← Script.perform (.remove path) with
  | .ok () => return .ok true
  | .error .missing => return .ok false
  | .error trouble => return .error (.io path trouble)

/-- Writes a file beside its place and renames it into its place. -/
def writeWhole (disk : Disk) (name : String) (contents : Bytes) : Script (Except StorageError Unit) := do
  let draft := disk.path (name ++ draftSuffix)
  match ← Script.perform (.write draft contents) with
  | .error trouble => return .error (.io draft trouble)
  | .ok () =>
    match ← Script.perform (.rename draft (disk.path name)) with
    | .error trouble => return .error (.io (disk.path name) trouble)
    | .ok () => return .ok ()

/-- Stores data and a sidecar under a key, in place of an earlier pair. The earlier sidecar goes first:
a failure part way leaves no sidecar beside data of another write. -/
def write (disk : Disk) (key : Key) (data : Bytes) (sidecar : Sidecar) :
    Script (Except StorageError Unit) := do
  match ← removeIfPresent (disk.sidecarPath key) with
  | .error e => return .error e
  | .ok _ =>
    match ← disk.writeWhole (dataName key) data with
    | .error e => return .error e
    | .ok () => disk.writeWhole (sidecarName key) sidecar.render

/-- Reads the sidecar at a path; none if there is no file. -/
def readSidecarAt (path : Path) : Script (Except StorageError (Option Sidecar)) := do
  match ← Script.perform (.read path) with
  | .error .missing => return .ok none
  | .error trouble => return .error (.io path trouble)
  | .ok contents =>
    match Sidecar.read contents with
    | .ok sidecar => return .ok (some sidecar)
    | .error fault => return .error (.corruptSidecar path fault)

/-- Reads a key's sidecar. -/
def readSidecar (disk : Disk) (key : Key) : Script (Except StorageError (Option Sidecar)) :=
  readSidecarAt (disk.sidecarPath key)

/-- Reads a key's sidecar and data. Data that is missing, or whose digest is not the sidecar's, counts
as absent. -/
def read (disk : Disk) (key : Key) : Script (Except StorageError (Option (Sidecar × Bytes))) := do
  match ← disk.readSidecar key with
  | .error e => return .error e
  | .ok none => return .ok none
  | .ok (some sidecar) =>
    match ← Script.perform (.read (disk.dataPath key)) with
    | .error .missing => return .ok none
    | .error trouble => return .error (.io (disk.dataPath key) trouble)
    | .ok data =>
      if Sha256.hexDigest data = sidecar.sha256 then return .ok (some (sidecar, data))
      else return .ok none

/-- Removes a key's sidecar and data, and says whether there was a sidecar. -/
def delete (disk : Disk) (key : Key) : Script (Except StorageError Bool) := do
  match ← removeIfPresent (disk.sidecarPath key) with
  | .error e => return .error e
  | .ok existed =>
    match ← removeIfPresent (disk.dataPath key) with
    | .error e => return .error e
    | .ok _ => return .ok existed

/-- Whether a file of this name is taken for a sidecar. -/
def isSidecarName (name : String) : Bool := sidecarSuffix.toList.isSuffixOf name.toList

/-- Reads the sidecars of the given names, passing over those that cannot be read. -/
def readAll (disk : Disk) : List String → Script (List Sidecar)
  | [] => return []
  | name :: names => do
    let found ← readSidecarAt (disk.path name)
    let others ← disk.readAll names
    match found with
    | .ok (some sidecar) => return sidecar :: others
    | _ => return others

/-- All sidecars in the data directory that can be read. -/
def list (disk : Disk) : Script (Except StorageError (List Sidecar)) := do
  match ← Script.perform (.list disk.root) with
  | .error trouble => return .error (.io disk.root trouble)
  | .ok names => return .ok (← disk.readAll (names.filter isSidecarName))

end Disk

end OriginMap
