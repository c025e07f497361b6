import Mathlib.Data.Nat.Notation
import OriginMap.Disk
import OriginMap.Proofs.Files.Directory

/-!
# Names of a key's files

A key owns four names in the data directory: those of its data file and its sidecar, and those under
which the two are written before they are renamed. Keys of different stems share none of them. All
characters of a name are plain, and a name is short enough for any folder.
-/

namespace OriginMap

open Files

/-- The bytes of a text are counted by its size. -/
theorem length_utf8 (text : String) : (utf8 text).length = text.utf8ByteSize := by
  rw [← String.size_toByteArray, ← toByteArray_utf8, List.size_toByteArray]

/-- A text of ASCII characters has a byte for each. -/
theorem utf8ByteSize_of_ascii {text : String} (h : ∀ c ∈ text.toList, c.toNat < 128) :
    text.utf8ByteSize = text.toList.length := by
  rw [← length_utf8, utf8, List.length_flatMap]
  have hone : ∀ c ∈ text.toList, (String.utf8EncodeChar c).length = 1 := by
    intro c hc
    rw [String.length_utf8EncodeChar, Char.utf8Size_eq_one_iff, UInt32.le_iff_toNat_le]
    exact Nat.le_of_lt_succ (h c hc)
  rw [List.map_congr_left hone, List.map_const', List.sum_replicate_nat, Nat.mul_one]

namespace Key

/-- Whether a character may stand in the name of a key's file. -/
def isNameChar (c : Char) : Bool := isPlain c || c = '@' || c = '.'

/-- The characters in names are ASCII characters other than NUL. -/
theorem toNat_of_isNameChar {c : Char} (h : isNameChar c = true) : 0 < c.toNat ∧ c.toNat < 128 := by
  simp only [isNameChar, isPlain, Bool.or_eq_true, Bool.and_eq_true, decide_eq_true_eq] at h
  rcases h with (((((⟨hl, hr⟩ | ⟨hl, hr⟩) | ⟨hl, hr⟩) | rfl) | rfl) | rfl) | rfl
  · change 48 ≤ c.toNat at hl
    change c.toNat ≤ 57 at hr
    omega
  · change 65 ≤ c.toNat at hl
    change c.toNat ≤ 90 at hr
    omega
  · change 97 ≤ c.toNat at hl
    change c.toNat ≤ 122 at hr
    omega
  all_goals decide

/-- The readable form of a part holds plain characters only, at most sixty-four of them. -/
theorem readable_plain (part : String) :
    (readable part).length ≤ 64 ∧ ∀ c ∈ readable part, isPlain c = true := by
  refine ⟨?_, fun c hc => ?_⟩
  · rw [readable, List.length_take]
    exact Nat.min_le_left _ _
  · obtain ⟨original, _, rfl⟩ := List.mem_map.mp (List.mem_of_mem_take hc)
    split
    · assumption
    · decide

/-- Hexadecimal digits are plain characters. -/
theorem isPlain_hexDigit : ∀ n < 16, isPlain (hexDigit n) = true := by
  decide

/-- Hexadecimal notation holds plain characters only. -/
theorem isPlain_of_mem_hex {bytes : Bytes} : ∀ c ∈ hex bytes, isPlain c = true := by
  intro c hc
  obtain ⟨byte, _, hc⟩ := List.mem_flatMap.mp hc
  have hbyte := byte.toNat_lt
  simp only [List.mem_cons, List.not_mem_nil, or_false] at hc
  rcases hc with rfl | rfl
  · exact isPlain_hexDigit _ (by omega)
  · exact isPlain_hexDigit _ (by omega)

/-- A stem has at most 146 characters, all of which may stand in names. -/
theorem stem_toList (key : Key) :
    key.stem.toList.length ≤ 146 ∧ ∀ c ∈ key.stem.toList, isNameChar c = true := by
  obtain ⟨happlication, hplain⟩ := readable_plain key.application
  obtain ⟨hversion, hplain'⟩ := readable_plain key.version
  rw [stem, String.toList_ofList]
  constructor
  · simp only [List.length_append, List.length_cons, List.length_take]
    omega
  · intro c hc
    simp only [List.mem_append, List.mem_cons] at hc
    rcases hc with (hc | rfl | hc) | rfl | hc
    · simp [isNameChar, hplain c hc]
    · rfl
    · simp [isNameChar, hplain' c hc]
    · rfl
    · simp [isNameChar, isPlain_of_mem_hex c (List.mem_of_mem_take hc)]

/-- A stem is not empty: it holds the character between its readable parts. -/
theorem at_mem_stem (key : Key) : '@' ∈ key.stem.toList := by
  simp [stem]

end Key

namespace Disk

/-- What a file in the data directory is there for. -/
inductive FileKind where
  /-- It holds the data. -/
  | data
  /-- It is the sidecar. -/
  | sidecar
  /-- It is to become the data. -/
  | dataDraft
  /-- It is to become the sidecar. -/
  | sidecarDraft
  deriving DecidableEq, Repr

/-- What ends the name of such a file. -/
def FileKind.suffix : FileKind → String
  | data => dataSuffix
  | sidecar => sidecarSuffix
  | dataDraft => dataSuffix ++ draftSuffix
  | sidecarDraft => sidecarSuffix ++ draftSuffix

/-- The name of a key's file. -/
def fileName (key : Key) (kind : FileKind) : String := key.stem ++ kind.suffix

/-- The name of a draft of the data. -/
theorem dataName_append (key : Key) : dataName key ++ draftSuffix = fileName key .dataDraft := by
  rw [dataName, fileName, FileKind.suffix, String.append_assoc]

/-- The name of a draft of the sidecar. -/
theorem sidecarName_append (key : Key) :
    sidecarName key ++ draftSuffix = fileName key .sidecarDraft := by
  rw [sidecarName, fileName, FileKind.suffix, String.append_assoc]

/-- No suffix ends in another one. -/
theorem FileKind.eq_of_suffix (kind kind' : FileKind)
    (h : kind.suffix.toList <:+ kind'.suffix.toList) : kind = kind' := by
  revert h
  cases kind <;> cases kind' <;> decide

/-- Names are the same only for one stem and one kind of file. -/
theorem fileName_inj {key key' : Key} {kind kind' : FileKind}
    (h : fileName key kind = fileName key' kind') : key.stem = key'.stem ∧ kind = kind' := by
  have hlist : key.stem.toList ++ kind.suffix.toList = key'.stem.toList ++ kind'.suffix.toList := by
    rw [← String.toList_append, ← String.toList_append]
    exact congrArg String.toList h
  have hkind : kind = kind' := by
    rcases List.suffix_or_suffix_of_suffix (List.suffix_append _ _)
      (hlist ▸ List.suffix_append key.stem.toList kind.suffix.toList) with hsuffix | hsuffix
    · exact (FileKind.eq_of_suffix _ _ hsuffix).symm
    · exact FileKind.eq_of_suffix _ _ hsuffix
  subst hkind
  exact ⟨String.toList_inj.mp (List.append_cancel_right hlist), rfl⟩

/-- Files of keys with different stems are apart. -/
theorem fileName_ne_of_stem_ne {key key' : Key} (h : key.stem ≠ key'.stem) (kind kind' : FileKind) :
    fileName key kind ≠ fileName key' kind' :=
  fun hname => h (fileName_inj hname).1

/-- A file is taken for a sidecar if it is one, and no other file of a key is. -/
theorem isSidecarName_fileName (key : Key) (kind : FileKind) :
    isSidecarName (fileName key kind) = true ↔ kind = .sidecar := by
  rw [isSidecarName, List.isSuffixOf_iff_suffix, fileName, String.toList_append]
  constructor
  · intro h
    rcases List.suffix_or_suffix_of_suffix h (List.suffix_append _ kind.suffix.toList) with h | h
    · exact (FileKind.eq_of_suffix .sidecar kind h).symm
    · exact FileKind.eq_of_suffix kind .sidecar h
  · rintro rfl
    exact List.suffix_append _ _

/-- All characters of a name are plain, and it has at most 160 of them. -/
theorem fileName_toList (key : Key) (kind : FileKind) :
    (fileName key kind).toList.length ≤ 160 ∧
      ∀ c ∈ (fileName key kind).toList, Key.isNameChar c = true := by
  obtain ⟨hlength, hchars⟩ := key.stem_toList
  have hsuffix : kind.suffix.toList.length ≤ 14 ∧
      kind.suffix.toList.all Key.isNameChar = true := by
    cases kind <;> decide
  rw [fileName, String.toList_append, List.length_append]
  refine ⟨by omega, fun c hc => ?_⟩
  rcases List.mem_append.mp hc with hc | hc
  · exact hchars c hc
  · exact List.all_eq_true.mp hsuffix.2 c hc

/-- A name has at most 160 bytes. -/
theorem utf8ByteSize_fileName_le (key : Key) (kind : FileKind) :
    (fileName key kind).utf8ByteSize ≤ 160 := by
  obtain ⟨hlength, hchars⟩ := fileName_toList key kind
  rw [utf8ByteSize_of_ascii fun c hc => (Key.toNat_of_isNameChar (hchars c hc)).2]
  exact hlength

/-- The names of a key's files can name something in a folder. -/
theorem isName_fileName (key : Key) (kind : FileKind) : Path.isName (fileName key kind) = true := by
  have hat : '@' ∈ (fileName key kind).toList := by
    rw [fileName, String.toList_append]
    exact List.mem_append_left _ key.at_mem_stem
  have hsize := utf8ByteSize_fileName_le key kind
  refine Path.isName_iff.mpr ⟨?_, ?_, ?_, by unfold Path.maxNameSize; omega⟩
  all_goals
    intro h
    rw [h] at hat
    revert hat
    decide

/-- No name holds a NUL. -/
theorem nul_notMem_fileName (key : Key) (kind : FileKind) :
    '\x00' ∉ (fileName key kind).toList := by
  intro h
  have := (Key.toNat_of_isNameChar ((fileName_toList key kind).2 _ h)).1
  exact absurd this (by decide)

/-- If the path of a key's sidecar can be looked up, so can that of its data, which is shorter. -/
theorem fits_dataPath {disk : Disk} {key : Key} (h : (disk.sidecarPath key).fits = true) :
    (disk.dataPath key).fits = true := by
  refine Path.fits_child_of_le h (nul_notMem_fileName key .data) ?_
  have hsuffix : dataSuffix.utf8ByteSize ≤ sidecarSuffix.utf8ByteSize := by decide
  rw [dataName, sidecarName, String.utf8ByteSize_append, String.utf8ByteSize_append]
  omega

end Disk

end OriginMap
