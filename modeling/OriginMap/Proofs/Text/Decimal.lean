import Mathlib.Tactic.Ring
import OriginMap.Text.Decimal

/-!
# Decimal notation read back

A natural number is read back from its decimal notation, padded or not. Padded to a width that suffices,
the notation has exactly that width.
-/

namespace OriginMap.Text

/-- The class of digits in bounds on the code point. -/
theorem isDigit_iff {c : Char} : isDigit c = true ↔ 48 ≤ c.toNat ∧ c.toNat ≤ 57 := by
  rw [isDigit, Bool.and_eq_true, decide_eq_true_eq, decide_eq_true_eq, Char.le_def, Char.le_def,
    UInt32.le_iff_toNat_le, UInt32.le_iff_toNat_le]
  rfl

/-- The class of digits is that of the core library. -/
theorem isDigit_eq (c : Char) : isDigit c = c.isDigit := by
  rw [isDigit, Char.isDigit]
  rfl

/-- A digit read back. -/
theorem digitValue_digitChar : ∀ d < 10, digitValue (Nat.digitChar d) = d := by
  decide

/-- One more digit at the end. -/
theorem digitsValue_concat (digits : List Char) (c : Char) :
    digitsValue (digits ++ [c]) = 10 * digitsValue digits + digitValue c := by
  rw [digitsValue, List.foldl_append]
  rfl

/-- Zeros at the front count for nothing. -/
theorem digitsValue_zeros (count : ℕ) (digits : List Char) :
    digitsValue (List.replicate count '0' ++ digits) = digitsValue digits := by
  have hzeros : ∀ count : ℕ,
      (List.replicate count '0').foldl (fun n c => 10 * n + digitValue c) 0 = 0 := by
    intro count
    induction count with
    | zero => rfl
    | succ count ih => simpa [List.replicate_succ, digitValue] using ih
  rw [digitsValue, List.foldl_append, hzeros, digitsValue]

/-- A number is read back from its digits. -/
theorem digitsValue_toDigits (n : ℕ) : digitsValue (Nat.toDigits 10 n) = n := by
  induction n using Nat.strong_induction_on with
  | _ n ih =>
    by_cases hn : n < 10
    · rw [Nat.toDigits_of_lt_base hn]
      show 10 * 0 + digitValue n.digitChar = n
      rw [digitValue_digitChar n hn, Nat.mul_zero, Nat.zero_add]
    · rw [Nat.toDigits_of_base_le (by omega) (by omega), digitsValue_concat, ih _ (by omega),
        digitValue_digitChar _ (by omega)]
      omega

/-- Decimal notation is made of digits. -/
theorem isDigit_of_mem_padded (width n : ℕ) : ∀ c ∈ padded width n, isDigit c = true := by
  intro c hc
  rcases List.mem_append.mp hc with hc | hc
  · rw [(List.mem_replicate.mp hc).2]
    rfl
  · rw [isDigit_eq]
    exact Nat.isDigit_of_mem_toDigits (by omega) (by omega) hc

/-- A number is read back from its decimal notation. -/
theorem digitsValue_padded (width n : ℕ) : digitsValue (padded width n) = n := by
  rw [padded, digitsValue_zeros, digitsValue_toDigits]

/-- Decimal notation has as many digits as wanted if those suffice. -/
theorem length_padded {width n : ℕ} (hwidth : 0 < width) (hn : n < 10 ^ width) :
    (padded width n).length = width := by
  have hle := (Nat.length_toDigits_le_iff (by omega) hwidth).mpr hn
  simp only [padded, List.length_append, List.length_replicate]
  omega

/-- Decimal notation has at least as many digits as wanted. -/
theorem le_length_padded (width n : ℕ) : width ≤ (padded width n).length := by
  simp only [padded, List.length_append, List.length_replicate]
  omega

/-- Decimal notation starts with a digit. -/
theorem padded_eq_cons {width : ℕ} (hwidth : 0 < width) (n : ℕ) :
    ∃ c digits, padded width n = c :: digits ∧ isDigit c = true := by
  have hlength := le_length_padded width n
  cases hdigits : padded width n with
  | nil =>
    rw [hdigits, List.length_nil] at hlength
    omega
  | cons c digits =>
    exact ⟨c, digits, rfl, isDigit_of_mem_padded width n c (by rw [hdigits]; exact List.mem_cons_self)⟩

/-- No digit but that of zero is a zero. -/
theorem digitChar_ne_zero : ∀ d < 10, 0 < d → Nat.digitChar d ≠ '0' := by
  decide

/-- Without padding there is no zero at the front, but for zero itself. -/
theorem head?_toDigits {n : ℕ} (hn : 0 < n) : (Nat.toDigits 10 n).head? ≠ some '0' := by
  induction n using Nat.strong_induction_on with
  | _ n ih =>
    by_cases hsmall : n < 10
    · rw [Nat.toDigits_of_lt_base hsmall]
      simpa using digitChar_ne_zero n hsmall hn
    · have hfront := ih (n / 10) (by omega) (by omega)
      rw [Nat.toDigits_of_base_le (by omega) (by omega)]
      cases hdigits : Nat.toDigits 10 (n / 10) with
      | nil => exact absurd hdigits Nat.toDigits_ne_nil
      | cons c rest =>
        rw [hdigits] at hfront
        exact hfront

end OriginMap.Text
