import OriginMap.Bytes
import OriginMap.Sha256
import OriginMap.Text.Blank

/-!
# Artifact keys

An artifact belongs to one version of one application. The file stem of a key starts with a readable,
lossy form of both; sixteen digits of a digest keep different keys apart.
-/

namespace OriginMap

/-- What identifies an artifact. -/
structure Key where
  /-- The application. -/
  application : String
  /-- Its version. -/
  version : String
  deriving DecidableEq, Repr, Inhabited

/-- A half of a key. -/
inductive Key.Part where
  /-- The application. -/
  | application
  /-- The version. -/
  | version
  deriving DecidableEq, Repr

/-- Why two texts are no key. -/
inductive Key.Fault where
  /-- A part is empty or blank. -/
  | empty (part : Key.Part)
  /-- A part holds a control character. -/
  | control (part : Key.Part)
  deriving DecidableEq, Repr

namespace Key

/-- What a part is called in messages. -/
def Part.name : Part → String
  | application => "application id"
  | version => "version"

/-- The wording of the error. -/
def Fault.message : Fault → String
  | empty part => "invalid artifact key: " ++ part.name ++ " must not be empty"
  | control part => "invalid artifact key: " ++ part.name ++ " must not contain control characters"

/-- The fault of one part, if it has one. -/
def fault? (part : Part) (text : String) : Option Fault :=
  if text.toList.all Text.isBlank then some (.empty part)
  else if text.toList.any Text.isControl then some (.control part)
  else none

/-- The key of an application and a version. The application is judged first. -/
def make (application version : String) : Except Fault Key :=
  match fault? .application application with
  | some fault => .error fault
  | none =>
    match fault? .version version with
    | some fault => .error fault
    | none => .ok ⟨application, version⟩

/-- The key as people read it. -/
def display (key : Key) : String := key.application ++ "@" ++ key.version

/-- Whether a character may stand in the readable part of a file stem. -/
def isPlain (c : Char) : Bool :=
  ('0' ≤ c && c ≤ '9') || ('A' ≤ c && c ≤ 'Z') || ('a' ≤ c && c ≤ 'z') || c = '-' || c = '_'

/-- The readable form of a part: at most sixty-four characters, each plain or an underscore. -/
def readable (part : String) : List Char :=
  (part.toList.map fun c => if isPlain c then c else '_').take 64

/-- The bytes whose digest sets a key apart. -/
def fingerprint (key : Key) : Bytes := utf8 key.application ++ 0 :: utf8 key.version

/-- The stem of the names of a key's files. -/
def stem (key : Key) : String :=
  String.ofList (readable key.application ++ '@' :: readable key.version ++ '.' ::
    (hex (Sha256.digest key.fingerprint)).take 16)

/-- Order of keys: by the bytes of the application, then by those of the version. -/
instance : Ord Key where
  compare a b :=
    (compare (utf8 a.application) (utf8 b.application)).then
      (compare (utf8 a.version) (utf8 b.version))

end Key

end OriginMap
