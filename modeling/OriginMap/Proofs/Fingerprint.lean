import Mathlib.Data.List.Basic
import OriginMap.Proofs.FileName
import OriginMap.Proofs.Json.Spelling
import OriginMap.Proofs.Stats

/-!
# Fingerprints of keys

The two parts of a key are hashed with a NUL between them. As no part of a key holds a control
character, different keys have different fingerprints. A stem shows the first eight bytes of the digest,
behind the last of its separators, so stems are the same only if these bytes are.
-/

namespace OriginMap

/-! ## Hexadecimal notation -/

/-- Hexadecimal digits are the same only for the same number. -/
theorem hexDigit_inj : ∀ n < 16, ∀ m < 16, hexDigit n = hexDigit m → n = m := by
  decide

/-- Bytes are the same if their hexadecimal notation is. -/
theorem hex_injective {bytes bytes' : Bytes} (h : hex bytes = hex bytes') : bytes = bytes' := by
  induction bytes generalizing bytes' with
  | nil =>
    cases bytes' with
    | nil => rfl
    | cons b bytes' => simp [hex] at h
  | cons b bytes ih =>
    cases bytes' with
    | nil => simp [hex] at h
    | cons b' bytes' =>
      simp only [hex, List.flatMap_cons, List.cons_append, List.nil_append, List.cons.injEq] at h
      obtain ⟨hhigh, hlow, hrest⟩ := h
      have hb := b.toNat_lt
      have hb' := b'.toNat_lt
      have hhigh := hexDigit_inj _ (by omega) _ (by omega) hhigh
      have hlow := hexDigit_inj _ (by omega) _ (by omega) hlow
      rw [ih hrest, UInt8.toNat_inj.mp (show b.toNat = b'.toNat by omega)]

/-- The first digits are those of the first bytes, two for each. -/
theorem take_hex (bytes : Bytes) (count : ℕ) :
    (hex bytes).take (2 * count) = hex (bytes.take count) := by
  induction bytes generalizing count with
  | nil => simp [hex]
  | cons b bytes ih =>
    cases count with
    | zero => rfl
    | succ count =>
      rw [Nat.mul_succ, List.take_succ_cons]
      simpa [hex] using ih count

namespace Key

/-! ## Parts -/

/-- A separator of a stem stands nowhere among plain characters. -/
theorem notMem_of_isPlain {chars : List Char} (h : ∀ c ∈ chars, isPlain c = true) {separator : Char}
    (hseparator : isPlain separator = false) : separator ∉ chars := by
  intro hmem
  rw [h separator hmem] at hseparator
  cases hseparator

/-- Stems are the same only if the digests start with the same eight bytes. -/
theorem take_digest_eq_of_stem_eq {key other : Key} (h : key.stem = other.stem) :
    (Sha256.digest key.fingerprint).take 8 = (Sha256.digest other.fingerprint).take 8 := by
  have hchars := String.toList_inj.mpr h
  simp only [stem, String.toList_ofList, List.append_assoc, List.cons_append] at hchars
  have hat : isPlain '@' = false := by decide
  have hdot : isPlain '.' = false := by decide
  have hdigits (key : Key) : ∀ c ∈ (hex (Sha256.digest key.fingerprint)).take 16,
      isPlain c = true :=
    fun c hc => isPlain_of_mem_hex c (List.mem_of_mem_take hc)
  have hat_notMem : '@' ∉ readable key.version ++ '.' ::
      (hex (Sha256.digest key.fingerprint)).take 16 := by
    simp only [List.mem_append, List.mem_cons, not_or]
    exact ⟨notMem_of_isPlain (readable_plain _).2 hat, by decide, notMem_of_isPlain (hdigits key) hat⟩
  obtain ⟨-, -, hrest⟩ := (List.append_cons_inj_of_notMem
    (notMem_of_isPlain (readable_plain _).2 hat) hat_notMem).mp hchars
  obtain ⟨-, -, hhex⟩ := (List.append_cons_inj_of_notMem
    (notMem_of_isPlain (readable_plain _).2 hdot) (notMem_of_isPlain (hdigits key) hdot)).mp hrest
  rw [show 16 = 2 * 8 from rfl, take_hex, take_hex] at hhex
  exact hex_injective hhex

/-- Keys whose digests start differently have different stems. -/
theorem stem_ne_of_take_digest_ne {key other : Key}
    (h : (Sha256.digest key.fingerprint).take 8 ≠ (Sha256.digest other.fingerprint).take 8) :
    key.stem ≠ other.stem :=
  fun hstem => h (take_digest_eq_of_stem_eq hstem)

end Key

end OriginMap
